/-
The sources of a rule decision, twice: what `build_sentinel_features` records for a row, and the quadratic definition of
the independent verifier (`_expected_rule_sources` of `v5_independent_verifier.py`).

- `emitRow_puts`: a projection is a run of feature assignments, so its sources are those of the rule features among
  them (`sources_puts`).
- `mem_emittedSources`: over all rule features these are the earlier rows with the row's actor or its counterparty.
- `expectedRuleSources_eq`: the verifier's filter selects the same.
- `recorded_sources`: the two agree, with the same maximum availability.
-/
import Apar.Features.SentinelRenaming

namespace Apar

open Exec Cohorts

namespace Sentinel

variable {F : Type}

/-! ## The independent definition -/

/-- `row["support"]`: what the verifier reads of a row to find its sources -/
structure RowSupport where
  eventId : String
  actorId : String
  counterpartyId : String

/-- `_expected_rule_sources` -/
def expectedRuleSources (target : RowSupport) (rows : List RowSupport) (eventTimes : String → Time)
    (catalogNames : List String) : List String :=
  let targetTime := eventTimes target.eventId
  let prior := rows.filter fun row => eventTimes row.eventId < targetTime
  let actor := prior.filter fun row => row.actorId = target.actorId
  let counterparty := prior.filter fun row => row.counterpartyId = target.counterpartyId
  let pair := actor.filter fun row => row.counterpartyId = target.counterpartyId
  let within (seconds : ℤ) (selected : List RowSupport) : List RowSupport :=
    selected.filter fun row => targetTime - eventTimes row.eventId ≤ seconds * 1000000
  let add (name : String) (selected : List RowSupport) (sources : List String) : List String :=
    if name ∈ catalogNames then sources ++ selected.map RowSupport.eventId else sources
  sortedSet ([]
    |> add "actor_count_1m" (within 60 actor)
    |> add "actor_count_10m" (within 600 actor)
    |> add "graph_actor_fanout" actor
    |> add "actor_amount_zscore_24h" (within 86400 actor)
    |> add "graph_counterparty_fanin" (within 86400 counterparty)
    |> add "graph_shared_neighbor_count" counterparty
    |> add "pair_prior_count" pair)

/-- every rule feature is in the catalog -/
def CoversRules (catalogNames : List String) : Prop := ∀ name ∈ ruleProvenanceFeatures, name ∈ catalogNames

/-- an earlier row of the same actor or the same counterparty -/
def RowSupport.precedes (eventTimes : String → Time) (target row : RowSupport) : Prop :=
  eventTimes row.eventId < eventTimes target.eventId ∧
    (row.actorId = target.actorId ∨ row.counterpartyId = target.counterpartyId)

theorem expectedRuleSources_eq {catalogNames : List String} (hcovers : CoversRules catalogNames)
    (target : RowSupport) (rows : List RowSupport) (eventTimes : String → Time) (id : String) :
    id ∈ expectedRuleSources target rows eventTimes catalogNames ↔
      ∃ row ∈ rows, row.eventId = id ∧ target.precedes eventTimes row := by
  have hname : ∀ name ∈ ruleProvenanceFeatures, (name ∈ catalogNames) = True := fun name h => eq_true (hcovers name h)
  unfold expectedRuleSources
  simp only [hname _ (show "actor_count_1m" ∈ ruleProvenanceFeatures by decide),
    hname _ (show "actor_count_10m" ∈ ruleProvenanceFeatures by decide),
    hname _ (show "graph_actor_fanout" ∈ ruleProvenanceFeatures by decide),
    hname _ (show "actor_amount_zscore_24h" ∈ ruleProvenanceFeatures by decide),
    hname _ (show "graph_counterparty_fanin" ∈ ruleProvenanceFeatures by decide),
    hname _ (show "graph_shared_neighbor_count" ∈ ruleProvenanceFeatures by decide),
    hname _ (show "pair_prior_count" ∈ ruleProvenanceFeatures by decide), if_true, List.nil_append]
  simp only [mem_sortedSet, List.mem_append, List.mem_map, List.mem_filter, decide_eq_true_eq]
  unfold RowSupport.precedes
  constructor
  · rintro ((((((h | h) | h) | h) | h) | h) | h)
    · obtain ⟨row, ⟨⟨⟨hrow, hbefore⟩, hactor⟩, -⟩, rfl⟩ := h
      exact ⟨row, hrow, rfl, hbefore, .inl hactor⟩
    · obtain ⟨row, ⟨⟨⟨hrow, hbefore⟩, hactor⟩, -⟩, rfl⟩ := h
      exact ⟨row, hrow, rfl, hbefore, .inl hactor⟩
    · obtain ⟨row, ⟨⟨hrow, hbefore⟩, hactor⟩, rfl⟩ := h
      exact ⟨row, hrow, rfl, hbefore, .inl hactor⟩
    · obtain ⟨row, ⟨⟨⟨hrow, hbefore⟩, hactor⟩, -⟩, rfl⟩ := h
      exact ⟨row, hrow, rfl, hbefore, .inl hactor⟩
    · obtain ⟨row, ⟨⟨⟨hrow, hbefore⟩, hcp⟩, -⟩, rfl⟩ := h
      exact ⟨row, hrow, rfl, hbefore, .inr hcp⟩
    · obtain ⟨row, ⟨⟨hrow, hbefore⟩, hcp⟩, rfl⟩ := h
      exact ⟨row, hrow, rfl, hbefore, .inr hcp⟩
    · obtain ⟨row, ⟨⟨⟨hrow, hbefore⟩, hactor⟩, -⟩, rfl⟩ := h
      exact ⟨row, hrow, rfl, hbefore, .inl hactor⟩
  · rintro ⟨row, hrow, rfl, hbefore, hactor | hcp⟩
    · exact .inl (.inl (.inl (.inl (.inr ⟨row, ⟨⟨hrow, hbefore⟩, hactor⟩, rfl⟩))))
    · exact .inl (.inr ⟨row, ⟨⟨hrow, hbefore⟩, hcp⟩, rfl⟩)

/-! ## Feature assignments -/

/-- one assignment of a feature: its name, its value and the rows it was read from -/
structure Put (F : Type) where
  name : String
  value : F
  sources : List (V5DecisionRow F)

def Put.apply (catalog : SentinelFeatureCatalog) (d : Draft F) (p : Put F) : Draft F :=
  setHistoricalFeature catalog p.name p.value p.sources d

variable {catalog : SentinelFeatureCatalog}

/-- the sources after a run of assignments: those before, and those of its rule features -/
theorem sources_puts {rows : List (V5DecisionRow F)} (hn : (rows.map V5DecisionRow.eventId).Nodup) {puts : List (Put F)}
    (hputs : ∀ p ∈ puts, ∀ r ∈ p.sources, r ∈ rows) {row : V5DecisionRow F} (hrow : row ∈ rows) (d : Draft F) :
    (puts.foldl (Put.apply catalog) d).sourceRows.get? row.eventId = some row ↔
      (∃ p ∈ puts, p.name ∈ catalog.featureNames ∧ p.name ∈ ruleProvenanceFeatures ∧ row ∈ p.sources) ∨
        d.sourceRows.get? row.eventId = some row := by
  induction puts generalizing d with
  | nil => simp
  | cons p puts ih =>
    have hsame : ∀ r ∈ p.sources, r.eventId = row.eventId → r = row := fun r hr hid =>
      List.inj_on_of_nodup_map hn (hputs p (by simp) r hr) hrow hid
    rw [List.foldl_cons, ih fun q hq => hputs q (by simp [hq])]
    simp only [List.mem_cons, or_and_right, exists_or, exists_eq_left]
    rw [or_comm (a := p.name ∈ catalog.featureNames ∧ _), or_assoc]
    refine or_congr_right ?_
    unfold Put.apply setHistoricalFeature
    split_ifs with hname hrule
    · rw [get?_sources hsame]
      simp [hname, hrule]
    · simp [hrule]
    · simp [hname]

theorem within_puts {P : V5DecisionRow F → Prop} {puts : List (Put F)} (hputs : ∀ p ∈ puts, ∀ r ∈ p.sources, P r)
    {d : Draft F} (hd : d.Within P) : (puts.foldl (Put.apply catalog) d).Within P := by
  induction puts generalizing d with
  | nil => exact hd
  | cons p puts ih => exact ih (fun q hq => hputs q (by simp [hq])) (hd.set catalog _ _ (hputs p (by simp)))

variable [PyFloat F]

open PyFloat

section puts

variable (h : History F) (row : V5DecisionRow F)

/-- the assignments of `actorFeatures` -/
def actorPuts : List (Put F) :=
  let actorHistory := h.actorEvents.getD row.actorId []
  let priorActor := actorHistory.filter row.follows
  let actorRows1h := priorActor.filter fun r => row.within r 3600
  let actorRows24h := priorActor.filter fun r => row.within r 86400
  let firstSeen := ((actorHistory.map fun r => r.decisionAt.instant).min?).getD row.decisionAt.instant
  let distinctCps : F := ofInt ((priorActor.map fun r => r.counterpartyId).toFinset.card)
  let velocity (w : ℤ × String) : Put F :=
    let windowRows := priorActor.filter fun r => row.within r w.1
    ⟨"actor_count_" ++ w.2, ofInt windowRows.length, windowRows⟩
  let others : List (Put F) :=
    [⟨"actor_amount_1h", sum (amounts actorRows1h), actorRows1h⟩,
      ⟨"actor_amount_24h", sum (amounts actorRows24h), actorRows24h⟩,
      ⟨"actor_seconds_since_first", totalSeconds (row.decisionAt.instant - firstSeen), actorHistory⟩,
      ⟨"actor_seconds_since_last", secondsSinceLast row priorActor, priorActor⟩,
      ⟨"actor_distinct_counterparties_24h", distinctCps, priorActor⟩,
      ⟨"graph_actor_fanout", distinctCps, priorActor⟩]
  velocityWindows.map velocity ++ others

/-- the assignments of `counterpartyFeatures` -/
def counterpartyPuts : List (Put F) :=
  let priorCp := (h.counterpartyEvents.getD row.counterpartyId []).filter fun r =>
    row.follows r && row.within r 86400
  let priorCp1h := priorCp.filter fun r => row.within r 3600
  let distinctActors : F :=
    ofInt (((priorCp.filter fun r => row.within r 86400).map fun r => r.actorId).toFinset.card)
  [⟨"counterparty_count_1h", ofInt priorCp1h.length, priorCp1h⟩,
    ⟨"counterparty_count_24h", ofInt priorCp.length, priorCp⟩,
    ⟨"counterparty_amount_24h", sum (amounts priorCp), priorCp⟩,
    ⟨"counterparty_distinct_actors_24h", distinctActors, priorCp⟩,
    ⟨"graph_counterparty_fanin", distinctActors, priorCp⟩]

/-- the assignments of `pairFeatures`, given the z-score -/
def pairPuts (zscore : F) : List (Put F) :=
  let priorPair := (h.pairEvents.getD (row.actorId, row.counterpartyId) []).filter row.follows
  let actorRows24h := ((h.actorEvents.getD row.actorId []).filter row.follows).filter fun r => row.within r 86400
  [⟨"pair_prior_count", ofInt priorPair.length, priorPair⟩,
    ⟨"pair_seconds_since_last", secondsSinceLast row priorPair, priorPair⟩,
    ⟨"graph_repeated_edge", ofInt (min priorPair.length 5), priorPair⟩,
    ⟨"actor_amount_zscore_24h", zscore, actorRows24h⟩]

/-- the assignments of `graphFeatures` -/
def graphPuts : List (Put F) :=
  let graphCpRows := (h.counterpartyEvents.getD row.counterpartyId []).filter fun r =>
    r.decisionAt.instant < row.decisionAt.instant
  let cpActorsPrior := (graphCpRows.map fun r => r.actorId).toFinset
  let shared := (cpActorsPrior.erase row.actorId).card
  let recentBurst := ((h.actorEvents.getD row.actorId []).filter row.follows).filter fun r => row.within r 60
  let priorGraphSize := (h.actorNodesSeen ∪ h.cpNodesSeen).card
  let graphNodes := max (h.actorNodesSeen.card * h.cpNodesSeen.card) 1
  [⟨"graph_shared_neighbor_count", ofInt shared, graphCpRows⟩,
    ⟨"graph_two_hop_reach", ofInt (min (shared * 2) 20), graphCpRows⟩,
    ⟨"graph_burst_motif", ofInt (min recentBurst.length 10), recentBurst⟩,
    ⟨"graph_component_size", ofInt priorGraphSize, h.allPriorRows⟩,
    ⟨"graph_edge_density", trueDiv h.allEdgesSeen graphNodes, h.allPriorRows⟩]

/-- all assignments of a projection, in order -/
def emissionPuts (zscore : F) : List (Put F) :=
  actorPuts h row ++ (counterpartyPuts h row ++ (pairPuts h row zscore ++ graphPuts h row))

end puts

/-- the draft of a projection after its assignments -/
def emissionDraft (catalog : SentinelFeatureCatalog) (h : History F) (row : V5DecisionRow F) (zscore : F) : Draft F :=
  (emissionPuts h row zscore).foldl (Put.apply catalog) ⟨clockFeatures row row.predictiveFeatures, ∅⟩

/-- a projection is a run of assignments from an empty draft -/
theorem emitRow_puts {h : History F} {row : V5DecisionRow F} {e : Emission F} (he : emitRow catalog h row = .ok e) :
    ∃ zscore, e.provenance = ⟨row.eventId, row.decisionAt, (emissionDraft catalog h row zscore).sourceEventIds,
      latest (emissionDraft catalog h row zscore).sourceTimes⟩ := by
  simp only [emitRow, except_bind_eq_ok, except_pure_eq_ok] at he
  obtain ⟨d, hd, _, -, provenance, hprovenance, rfl⟩ := he
  simp only [SentinelFeatureProvenance.make, except_bind_eq_ok, except_pure_eq_ok] at hprovenance
  obtain ⟨_, -, _, -, _, -, _, -, rfl⟩ := hprovenance
  simp only [pairFeatures, except_bind_eq_ok, except_pure_eq_ok] at hd
  obtain ⟨zscore, -, rfl⟩ := hd
  refine ⟨zscore, ?_⟩
  simp only [emissionDraft, emissionPuts, List.foldl_append]
  rfl

/-! ## The sources of an emission -/

section sources

variable {h : History F} {past : List (V5DecisionRow F)} (hof : h.Of past) {row : V5DecisionRow F}

include hof

variable {r : V5DecisionRow F}

omit [PyFloat F] in
theorem mem_actorEvents : r ∈ h.actorEvents.getD row.actorId [] ↔ r ∈ past ∧ r.actorId = row.actorId := by
  rw [hof.actors, List.mem_filter, decide_eq_true_eq]

omit [PyFloat F] in
theorem mem_counterpartyEvents :
    r ∈ h.counterpartyEvents.getD row.counterpartyId [] ↔ r ∈ past ∧ r.counterpartyId = row.counterpartyId := by
  rw [hof.counterparties, List.mem_filter, decide_eq_true_eq]

omit [PyFloat F] in
theorem mem_pairEvents (hr : r ∈ h.pairEvents.getD (row.actorId, row.counterpartyId) []) :
    r ∈ past ∧ r.actorId = row.actorId := by
  rw [hof.pairs, List.mem_filter, decide_eq_true_eq] at hr
  exact ⟨hr.1, hr.2.1⟩

/-- what an assignment reads comes from the past; a rule feature reads rows of the actor or the counterparty -/
theorem mem_sources_puts {zscore : F} {p : Put F} (hp : p ∈ emissionPuts h row zscore) (hr : r ∈ p.sources) :
    r ∈ past ∧ (p.name ∈ ruleProvenanceFeatures →
      r.actorId = row.actorId ∨ r.counterpartyId = row.counterpartyId) := by
  have hactor {q : V5DecisionRow F → Bool} (hmem : r ∈ (h.actorEvents.getD row.actorId []).filter q) :
      r ∈ past ∧ (p.name ∈ ruleProvenanceFeatures → r.actorId = row.actorId ∨ r.counterpartyId = row.counterpartyId) := by
    obtain ⟨hpast, hsame⟩ := (mem_actorEvents hof).1 (List.mem_of_mem_filter hmem)
    exact ⟨hpast, fun _ => .inl hsame⟩
  have hcp {q : V5DecisionRow F → Bool} (hmem : r ∈ (h.counterpartyEvents.getD row.counterpartyId []).filter q) :
      r ∈ past ∧ (p.name ∈ ruleProvenanceFeatures → r.actorId = row.actorId ∨ r.counterpartyId = row.counterpartyId) := by
    obtain ⟨hpast, hsame⟩ := (mem_counterpartyEvents hof).1 (List.mem_of_mem_filter hmem)
    exact ⟨hpast, fun _ => .inr hsame⟩
  simp only [emissionPuts, List.mem_append] at hp
  rcases hp with hp | hp | hp | hp
  · simp only [actorPuts, List.mem_append, List.mem_map, List.mem_cons, List.not_mem_nil, or_false] at hp
    rcases hp with ⟨w, -, rfl⟩ | rfl | rfl | rfl | rfl | rfl | rfl
    · exact hactor (List.mem_of_mem_filter hr)
    · exact hactor (List.mem_of_mem_filter hr)
    · exact hactor (List.mem_of_mem_filter hr)
    · obtain ⟨hpast, hsame⟩ := (mem_actorEvents hof).1 hr
      exact ⟨hpast, fun _ => .inl hsame⟩
    · exact hactor hr
    · exact hactor hr
    · exact hactor hr
  · simp only [counterpartyPuts, List.mem_cons, List.not_mem_nil, or_false] at hp
    rcases hp with rfl | rfl | rfl | rfl | rfl
    · exact hcp (List.mem_of_mem_filter hr)
    · exact hcp hr
    · exact hcp hr
    · exact hcp hr
    · exact hcp hr
  · have hpair {q : V5DecisionRow F → Bool}
        (hmem : r ∈ (h.pairEvents.getD (row.actorId, row.counterpartyId) []).filter q) :
        r ∈ past ∧ (p.name ∈ ruleProvenanceFeatures →
          r.actorId = row.actorId ∨ r.counterpartyId = row.counterpartyId) := by
      obtain ⟨hpast, hsame⟩ := mem_pairEvents hof (List.mem_of_mem_filter hmem)
      exact ⟨hpast, fun _ => .inl hsame⟩
    simp only [pairPuts, List.mem_cons, List.not_mem_nil, or_false] at hp
    rcases hp with rfl | rfl | rfl | rfl
    · exact hpair hr
    · exact hpair hr
    · exact hpair hr
    · exact hactor (List.mem_of_mem_filter hr)
  · simp only [graphPuts, List.mem_cons, List.not_mem_nil, or_false] at hp
    rcases hp with rfl | rfl | rfl | rfl | rfl
    · exact hcp hr
    · exact hcp hr
    · exact hactor (List.mem_of_mem_filter hr)
    -- the two features of the whole graph are not rule features
    · have hother : "graph_component_size" ∉ ruleProvenanceFeatures := by decide
      exact ⟨hof.prior ▸ hr, fun hrule => absurd hrule hother⟩
    · have hother : "graph_edge_density" ∉ ruleProvenanceFeatures := by decide
      exact ⟨hof.prior ▸ hr, fun hrule => absurd hrule hother⟩

/-- **The sources of an emission.** Over every rule feature, these are the rows of the past with the row's actor or its
counterparty. -/
theorem mem_emittedSources {catalog : SentinelFeatureCatalog} (hcovers : CoversRules catalog.featureNames)
    {rows : List (V5DecisionRow F)} (hn : (rows.map V5DecisionRow.eventId).Nodup) (hpast : ∀ r ∈ past, r ∈ rows)
    (hfollows : ∀ r ∈ past, row.follows r = true) {zscore : F} (hr : r ∈ rows) :
    (emissionDraft catalog h row zscore).sourceRows.get? r.eventId = some r ↔
      r ∈ past ∧ (r.actorId = row.actorId ∨ r.counterpartyId = row.counterpartyId) := by
  unfold emissionDraft
  rw [sources_puts hn (fun p hp r hr => hpast r (mem_sources_puts hof hp hr).1) hr]
  simp only [Dict.get?_empty, reduceCtorEq, or_false]
  constructor
  · rintro ⟨p, hp, -, hrule, hmem⟩
    obtain ⟨hmem, hsame⟩ := mem_sources_puts hof hp hmem
    exact ⟨hmem, hsame hrule⟩
  · rintro ⟨hmem, hactor | hcp⟩
    · have hrule : "graph_actor_fanout" ∈ ruleProvenanceFeatures := by decide
      refine ⟨_, List.mem_append_left _ (List.mem_append_right _ (List.mem_of_getElem? (i := 5) rfl)),
        hcovers _ hrule, hrule, ?_⟩
      exact List.mem_filter.2 ⟨(mem_actorEvents hof).2 ⟨hmem, hactor⟩, hfollows r hmem⟩
    · have hrule : "graph_shared_neighbor_count" ∈ ruleProvenanceFeatures := by decide
      refine ⟨_, List.mem_append_right _ (List.mem_append_right _ (List.mem_append_right _
        (List.mem_of_getElem? (i := 0) rfl))), hcovers _ hrule, hrule, ?_⟩
      refine List.mem_filter.2 ⟨(mem_counterpartyEvents hof).2 ⟨hmem, hcp⟩, ?_⟩
      have := hfollows r hmem
      unfold V5DecisionRow.follows at this
      simp only [Bool.and_eq_true, decide_eq_true_eq] at this
      exact decide_eq_true this.1

end sources

/-! ## The two agree -/

/-- a retained decision: its support, its amount and the times of its event -/
structure RetainedDecision (F : Type) where
  support : RowSupport
  amount : F
  decisionAt : Time
  availableAt : Time

/-- the row that `_decision_rows_from_retained_support` builds -/
def RetainedDecision.row (r : RetainedDecision F) : V5DecisionRow F where
  eventId := r.support.eventId
  actorId := r.support.actorId
  counterpartyId := r.support.counterpartyId
  amount := PyFloat.decimal r.amount
  decisionAt := ⟨r.decisionAt, some 0⟩
  predictiveFeatures := ∅

/-- `all_event_times`: the availability of every retained event -/
def allEventTimes (rows : List (RetainedDecision F)) (eventId : String) : Time :=
  ((rows.find? fun r => r.support.eventId = eventId).map RetainedDecision.availableAt).getD 0

/-- the greatest availability of some sources, as the verifier recomputes it -/
def expectedMaximum (eventTimes : String → Time) (sources : List String) : Option Time := (sources.map eventTimes).max?

omit [PyFloat F] in
theorem allEventTimes_eq {rows : List (RetainedDecision F)} (hn : (rows.map fun r => r.support.eventId).Nodup)
    {r : RetainedDecision F} (hr : r ∈ rows) : allEventTimes rows r.support.eventId = r.availableAt := by
  unfold allEventTimes
  rw [Indexing.find?_of_nodup_keys hn hr]
  rfl

theorem latest_utc {ts : List DateTime} (hutc : ∀ t ∈ ts, t.utcoffset = some 0) :
    latest ts = ((ts.map DateTime.instant).max?).map fun t => ⟨t, some 0⟩ := by
  cases h : latest ts with
  | none =>
    cases ts with
    | nil => rfl
    | cons t ts => cases h
  | some m =>
    obtain ⟨hm, hmax⟩ := latest_spec h
    have hinstant : (ts.map DateTime.instant).max? = some m.instant := by
      rw [List.max?_eq_some_iff]
      refine ⟨List.mem_map.2 ⟨m, hm, rfl⟩, fun t ht => ?_⟩
      obtain ⟨u, hu, rfl⟩ := List.mem_map.1 ht
      exact hmax u hu
    rw [hinstant, Option.map_some, ← hutc m hm]

/-- **Recorded sources are the verifier's.** -/
theorem recorded_sources [Sha256] {rows : List (RetainedDecision F)} (hcovers : CoversRules catalog.featureNames)
    (hn : (rows.map fun r => r.support.eventId).Nodup) (htimes : ∀ r ∈ rows, r.availableAt = r.decisionAt)
    {b : SentinelFeatureBatch F} (hb : buildSentinelFeatures (rows.map RetainedDecision.row) catalog = .ok b)
    {target : RetainedDecision F} (htarget : target ∈ rows) :
    ∃ values vector provenance, b.emission? target.support.eventId = some (values, vector, provenance) ∧
      provenance.sourceEventIds = expectedRuleSources target.support (rows.map RetainedDecision.support)
        (allEventTimes rows) catalog.featureNames ∧
      provenance.maxSourceAvailableAt =
        (expectedMaximum (allEventTimes rows) provenance.sourceEventIds).map fun t => ⟨t, some 0⟩ := by
  have hids : ((rows.map RetainedDecision.row).map V5DecisionRow.eventId).Nodup := by
    rw [List.map_map]
    exact hn
  have hrow : target.row ∈ rows.map RetainedDecision.row := List.mem_map.2 ⟨target, htarget, rfl⟩
  obtain ⟨e, hproj, hemission⟩ := emission?_of_built hids hb hrow
  refine ⟨e.values, e.vector, e.provenance, hemission, ?_⟩
  set rows' := rows.map RetainedDecision.row with hrows'
  set earlier := past (fun r => r.decisionAt.instant) (sortBy decisionKey rows') target.decisionAt with hearlier
  have hof := History.of_foldl earlier
  obtain ⟨zscore, hprovenance⟩ := emitRow_puts hproj
  set d := emissionDraft catalog (earlier.foldl History.add {}) target.row zscore with hd
  have hpast : ∀ r, r ∈ earlier ↔ r ∈ rows' ∧ r.decisionAt.instant < target.decisionAt := by
    intro r
    rw [hearlier, mem_past, mem_sortBy]
  have hfollows : ∀ r ∈ earlier, target.row.follows r = true := by
    intro r hr
    obtain ⟨hmem, hbefore⟩ := (hpast r).1 hr
    have hother : r.eventId ≠ target.row.eventId := by
      intro hid
      rw [List.inj_on_of_nodup_map hids hmem hrow hid] at hbefore
      exact lt_irrefl _ hbefore
    unfold V5DecisionRow.follows
    simp only [Bool.and_eq_true, decide_eq_true_eq, bne_iff_ne]
    exact ⟨hbefore, hother⟩
  have hwithin : d.Within fun r => r ∈ rows' := by
    refine within_puts (fun p hp r hr => ((hpast r).1 (mem_sources_puts hof hp hr).1).1) ?_
    intro id r hr
    cases hr
  have hsources : ∀ {r : V5DecisionRow F}, r ∈ rows' → (d.sourceRows.get? r.eventId = some r ↔
      r ∈ earlier ∧ (r.actorId = target.row.actorId ∨ r.counterpartyId = target.row.counterpartyId)) := fun hr =>
    mem_emittedSources hof hcovers hids (fun r hr => ((hpast r).1 hr).1) hfollows hr
  have hmem : ∀ id, id ∈ d.sourceEventIds ↔ ∃ r ∈ rows, r.support.eventId = id ∧
      target.support.precedes (allEventTimes rows) r.support := by
    intro id
    rw [Draft.sourceEventIds, mem_sortedSet, Dict.mem_keys]
    constructor
    · rintro ⟨r, hget⟩
      obtain ⟨rfl, hr⟩ := hwithin id r hget
      obtain ⟨hbefore, hsame⟩ := (hsources hr).1 hget
      obtain ⟨s, hs, rfl⟩ := List.mem_map.1 hr
      refine ⟨s, hs, rfl, ?_, hsame⟩
      rw [allEventTimes_eq hn hs, allEventTimes_eq hn htarget, htimes s hs, htimes target htarget]
      exact ((hpast _).1 hbefore).2
    · rintro ⟨s, hs, rfl, hbefore, hsame⟩
      rw [allEventTimes_eq hn hs, allEventTimes_eq hn htarget, htimes s hs, htimes target htarget] at hbefore
      have hs' : s.row ∈ rows' := List.mem_map.2 ⟨s, hs, rfl⟩
      exact ⟨s.row, (hsources hs').2 ⟨(hpast _).2 ⟨hs', hbefore⟩, hsame⟩⟩
  have hids' : d.sourceEventIds = expectedRuleSources target.support (rows.map RetainedDecision.support)
      (allEventTimes rows) catalog.featureNames := by
    have hself : expectedRuleSources target.support (rows.map RetainedDecision.support) (allEventTimes rows)
        catalog.featureNames = sortedSet (expectedRuleSources target.support (rows.map RetainedDecision.support)
          (allEventTimes rows) catalog.featureNames) := sortedSet_congr fun x => by
      rw [expectedRuleSources, mem_sortedSet]
    rw [hself, Draft.sourceEventIds]
    refine sortedSet_congr fun id => ?_
    rw [expectedRuleSources_eq hcovers, ← mem_sortedSet]
    refine (hmem id).trans ?_
    simp only [List.mem_map, exists_exists_and_eq_and]
  have htimes' : d.sourceTimes = d.sourceEventIds.map fun id => ⟨allEventTimes rows id, some 0⟩ := by
    unfold Draft.sourceTimes
    rw [← List.filterMap_eq_map]
    refine List.filterMap_congr fun id hid => ?_
    obtain ⟨s, hs, rfl, hbefore, hsame⟩ := (hmem id).1 hid
    have hs' : s.row ∈ rows' := List.mem_map.2 ⟨s, hs, rfl⟩
    have hget : d.sourceRows.get? s.support.eventId = some s.row := by
      refine (hsources hs').2 ⟨(hpast _).2 ⟨hs', ?_⟩, hsame⟩
      rwa [allEventTimes_eq hn hs, allEventTimes_eq hn htarget, htimes s hs, htimes target htarget] at hbefore
    rw [hget, Function.comp_apply, allEventTimes_eq hn hs, htimes s hs]
    rfl
  rw [hprovenance]
  refine ⟨hids', ?_⟩
  change latest d.sourceTimes = (expectedMaximum (allEventTimes rows) d.sourceEventIds).map fun t => ⟨t, some 0⟩
  rw [htimes', latest_utc (by simp), List.map_map]
  rfl

end Sentinel

end Apar
