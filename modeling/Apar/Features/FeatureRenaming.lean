/-
Features under other names (`_FeatureContext` of `features/state.py`): the actor ids, the counterparty ids and the values of
the optional references of every event are renamed by one injective map.

Identifiers are keys of the state and nodes of the payment graph, and nothing else: histories are told by the ids of their
events, which keep their order, and the graph features count nodes and edges.

- `methods_renamed`: a decision of renamed events has the features, and the sources, that it has under the old names.
- `historyAt_renamed`, `matrix_renamed`: so has one-shot construction.
- `renamed_features`: every injective renaming of the names of a set of events.
-/
import Apar.Core.FreshNames
import Apar.Features.CausalReplay

namespace Apar

open Exec

/-! ## Renamed events -/

/-- an event under other names -/
structure ObservedEvent.Renamed (ρ : String → String) (e e' : ObservedEvent) : Prop where
  eventId : e'.eventId = e.eventId
  paymentId : e'.paymentId = e.paymentId
  rail : e'.rail = e.rail
  eventType : e'.eventType = e.eventType
  amount : e'.amount = e.amount
  currency : e'.currency = e.currency
  eventTime : e'.eventTime = e.eventTime
  availableAt : e'.availableAt = e.availableAt
  decisionAt : e'.decisionAt = e.decisionAt
  actorId : e'.actorId = ρ e.actorId
  counterpartyId : e'.counterpartyId = ρ e.counterpartyId
  refs : ∀ name, e'.optionalRefs.get? name = (e.optionalRefs.get? name).map ρ
  integrityStatus : e'.integrityStatus = e.integrityStatus
  integrityReason : e'.integrityReason = e.integrityReason
  isDecisionPoint : e'.isDecisionPoint = e.isDecisionPoint

theorem ObservedEvent.Renamed.length_refs {ρ : String → String} {e e' : ObservedEvent} (h : e.Renamed ρ e') :
    e'.optionalRefs.items.length = e.optionalRefs.items.length := by
  have hkeys : e'.optionalRefs.keys.Perm e.optionalRefs.keys := by
    refine (List.perm_ext_iff_of_nodup e'.optionalRefs.nodup e.optionalRefs.nodup).2 fun name => ?_
    change name ∈ e'.optionalRefs.keys ↔ name ∈ e.optionalRefs.keys
    rw [← not_iff_not, ← Dict.get?_eq_none, ← Dict.get?_eq_none, h.refs, Option.map_eq_none_iff]
  have hlength := hkeys.length_eq
  rwa [Dict.keys, Dict.keys, List.length_map, List.length_map] at hlength

/-- the references may be written down in any order -/
theorem ObservedEvent.renamed_ofList (ρ : String → String) (e : ObservedEvent) {refs : List (String × String)}
    (h : refs.Perm e.optionalRefs.items) :
    e.Renamed ρ
      { e with
        actorId := ρ e.actorId
        counterpartyId := ρ e.counterpartyId
        optionalRefs := Dict.ofList (refs.map fun p => (p.1, ρ p.2)) } := by
  refine ⟨rfl, rfl, rfl, rfl, rfl, rfl, rfl, rfl, rfl, rfl, rfl, fun name => ?_, rfl, rfl, rfl⟩
  have hkeys : ((refs.map fun p => (p.1, ρ p.2)).map Prod.fst).Nodup := by
    rw [List.map_map]
    exact (h.map Prod.fst).nodup_iff.2 e.optionalRefs.nodup
  refine Option.ext fun v => ?_
  rw [Dict.get?_eq_some, Dict.items_ofList hkeys, List.mem_map, Option.map_eq_some_iff]
  constructor
  · intro ⟨p, hp, heq⟩
    rw [Prod.mk.injEq] at heq
    exact ⟨p.2, Dict.get?_eq_some.2 (heq.1 ▸ h.mem_iff.1 hp), heq.2⟩
  · intro ⟨w, hw, heq⟩
    exact ⟨(name, w), h.mem_iff.2 (Dict.get?_eq_some.1 hw), by rw [heq]⟩

/-- the renaming of an event -/
def ObservedEvent.rename (ρ : String → String) (e : ObservedEvent) : ObservedEvent :=
  { e with
    actorId := ρ e.actorId
    counterpartyId := ρ e.counterpartyId
    optionalRefs := Dict.ofList (e.optionalRefs.items.map fun p => (p.1, ρ p.2)) }

theorem ObservedEvent.renamed_rename (ρ : String → String) (e : ObservedEvent) : e.Renamed ρ (e.rename ρ) :=
  e.renamed_ofList ρ (List.Perm.refl _)

def GraphEdge.rename (ρ : String → String) (e : GraphEdge) : GraphEdge :=
  { e with actorId := ρ e.actorId, counterpartyId := ρ e.counterpartyId }

theorem ObservedEvent.Renamed.edge {ρ : String → String} {e e' : ObservedEvent} (h : e.Renamed ρ e') :
    e'.edge = e.edge.rename ρ := by
  simp only [ObservedEvent.edge, GraphEdge.rename, h.eventId, h.paymentId, h.actorId, h.counterpartyId, h.eventTime,
    h.availableAt, h.eventType, h.integrityStatus]

namespace Sourced

variable {α β γ : Type}

theorem map_congr {f : β → γ} {k : α → β} {f' : α → γ} (h : ∀ a, f (k a) = f' a) (x : Sourced α) :
    (x.map k).map f = x.map f' := by
  obtain ⟨value, sources⟩ := x
  rw [map, map, map, h]

end Sourced

namespace FeatureContext

variable {F : Type} [FeatureMath F] {ρ : String → String} {g : ObservedEvent → ObservedEvent} {c c' : FeatureContext}

/-- a context whose lists of events and edges are those of another one under other names -/
structure Renames (ρ : String → String) (g : ObservedEvent → ObservedEvent) (c c' : FeatureContext) : Prop where
  event : c.event.Renamed ρ c'.event
  actor : ∀ w o, c'.events (c'.state.actorHistory.getD c'.event.actorId []) w o =
    (c.events (c.state.actorHistory.getD c.event.actorId []) w o).map (List.map g)
  counterparty : ∀ w o, c'.events (c'.state.counterpartyHistory.getD c'.event.counterpartyId []) w o =
    (c.events (c.state.counterpartyHistory.getD c.event.counterpartyId []) w o).map (List.map g)
  pair : ∀ w o, c'.events (c'.state.pairHistory.getD (c'.event.actorId, c'.event.counterpartyId) []) w o =
    (c.events (c.state.pairHistory.getD (c.event.actorId, c.event.counterpartyId) []) w o).map (List.map g)
  actorAmount : ∀ w o, c'.events (c'.state.actorAmountHistory.getD c'.event.actorId []) w o =
    (c.events (c.state.actorAmountHistory.getD c.event.actorId []) w o).map (List.map g)
  counterpartyAmount : ∀ w o, c'.events (c'.state.counterpartyAmountHistory.getD c'.event.counterpartyId []) w o =
    (c.events (c.state.counterpartyAmountHistory.getD c.event.counterpartyId []) w o).map (List.map g)
  admitted : ∀ w o, c'.events c'.state.admittedIds w o = (c.events c.state.admittedIds w o).map (List.map g)
  late : ∀ w o, c'.events c'.state.lateEventIds w o = (c.events c.state.lateEventIds w o).map (List.map g)
  edges : c'.state.edges = c.state.edges.map (GraphEdge.rename ρ)

/-! ## Features of events -/

theorem count_renamed {α β : Type} (f : α → β) (xs : List α) : (count (xs.map f) : F) = count xs := by
  rw [count, count, List.length_map]

/-- as many different counterparties, or actors -/
theorem distinct_renamed (hρ : Function.Injective ρ) {party : ObservedEvent → String} (hparty : ∀ e, party (g e) = ρ (party e))
    (es : List ObservedEvent) : (count ((es.map g).map party).dedup : F) = count (es.map party).dedup := by
  have hmap : (es.map g).map party = (es.map party).map ρ := by
    rw [List.map_map, List.map_map]
    exact List.map_congr_left fun e _ => hparty e
  rw [hmap, List.dedup_map_of_injective hρ, count, count, List.length_map]

section

variable (hg : ∀ e : ObservedEvent, e.Renamed ρ (g e))

include hg

theorem sumAmounts_renamed (es : List ObservedEvent) : (sumAmounts (es.map g) : F) = sumAmounts es := by
  rw [sumAmounts, sumAmounts, List.map_map]
  exact congrArg (fun amounts => PyFloat.ofDecimal (Decimal.sum .default amounts)) (List.map_congr_left fun e _ => (hg e).amount)

theorem lagMs_renamed (e : ObservedEvent) : (lagMs (g e) : F) = lagMs e := by
  rw [lagMs, lagMs, (hg e).availableAt, (hg e).eventTime]

theorem elapsed_renamed (h : Renames ρ g c c') (first : Bool) (es : List ObservedEvent) :
    (c'.elapsed first (es.map g) : F) = c.elapsed first es := by
  have htimes : (es.map g).map ObservedEvent.eventTime = es.map ObservedEvent.eventTime := by
    rw [List.map_map]
    exact List.map_congr_left fun e _ => (hg e).eventTime
  rw [elapsed, elapsed, htimes, h.event.eventTime]

theorem zscore_renamed (h : Renames ρ g c c') (es : List ObservedEvent) : (c'.zscore (es.map g) : F) = c.zscore es := by
  have hamounts : (es.map g).map (fun e => (PyFloat.ofDecimal e.amount : F)) = es.map fun e => PyFloat.ofDecimal e.amount := by
    rw [List.map_map]
    exact List.map_congr_left fun e _ => congrArg PyFloat.ofDecimal (hg e).amount
  rw [zscore, zscore, List.isEmpty_map, hamounts, h.event.amount]

theorem fmean_lag_renamed (es : List ObservedEvent) :
    (if (es.map g).isEmpty then sentinel else FeatureMath.fmean ((es.map g).map lagMs) : F) =
      if es.isEmpty then sentinel else FeatureMath.fmean (es.map lagMs) := by
  have hlags : (es.map g).map (lagMs : ObservedEvent → F) = es.map lagMs := by
    rw [List.map_map]
    exact List.map_congr_left fun e _ => lagMs_renamed hg e
  rw [List.isEmpty_map, hlags]

end

/-! ## Features of the graph -/

section

variable (hρ : Function.Injective ρ) (h : Renames ρ g c c')

theorem graphEdges_renamed (h : Renames ρ g c c') (w : ℤ) :
    c'.graphEdges w = (c.graphEdges w).map (List.map (GraphEdge.rename ρ)) := by
  have hselected : ((c.state.edges.map (GraphEdge.rename ρ)).filter fun e =>
      c.event.eventTime - w ≤ e.eventTime && e.eventTime ≤ c.event.eventTime) =
        (c.state.edges.filter fun e => c.event.eventTime - w ≤ e.eventTime && e.eventTime ≤ c.event.eventTime).map
          (GraphEdge.rename ρ) := List.filter_map
  rw [graphEdges, graphEdges, h.edges, h.event.eventTime, hselected, List.map_map]
  rfl

include hρ

theorem neighbors_renamed (edges : List GraphEdge) (a : String) :
    (neighbors (edges.map (GraphEdge.rename ρ))).getD (ρ a) [] = ((neighbors edges).getD a []).map ρ := by
  have hends : (edges.map (GraphEdge.rename ρ)).map GraphEdge.ends = (edges.map GraphEdge.ends).map (Prod.map ρ ρ) := by
    rw [List.map_map, List.map_map]
    rfl
  rw [neighbors, hends]
  exact Components.adjacency_map hρ _ a

theorem keys_renamed (edges : List GraphEdge) (a : String) :
    ρ a ∈ (neighbors (edges.map (GraphEdge.rename ρ))).keys ↔ a ∈ (neighbors edges).keys := by
  rw [mem_keys_neighbors, mem_keys_neighbors]
  simp only [Occurs, List.mem_map, exists_exists_and_eq_and, GraphEdge.rename, hρ.eq_iff]

include h

theorem fanout_renamed (edges : List GraphEdge) :
    (count (((edges.map (GraphEdge.rename ρ)).filter fun e => e.actorId = c'.event.actorId).map
      GraphEdge.counterpartyId).dedup : F) =
        count ((edges.filter fun e => e.actorId = c.event.actorId).map GraphEdge.counterpartyId).dedup := by
  have hselected : ((edges.map (GraphEdge.rename ρ)).filter fun e => e.actorId = c'.event.actorId).map
      GraphEdge.counterpartyId =
        ((edges.filter fun e => e.actorId = c.event.actorId).map GraphEdge.counterpartyId).map ρ := by
    rw [List.filter_map, h.event.actorId, List.map_map, List.map_map]
    refine congrArg _ (List.filter_congr fun e _ => decide_eq_decide.2 ?_)
    exact hρ.eq_iff
  rw [hselected, List.dedup_map_of_injective hρ, count_renamed]

theorem fanin_renamed (edges : List GraphEdge) :
    (count (((edges.map (GraphEdge.rename ρ)).filter fun e => e.counterpartyId = c'.event.counterpartyId).map
      GraphEdge.actorId).dedup : F) =
        count ((edges.filter fun e => e.counterpartyId = c.event.counterpartyId).map GraphEdge.actorId).dedup := by
  have hselected : ((edges.map (GraphEdge.rename ρ)).filter fun e => e.counterpartyId = c'.event.counterpartyId).map
      GraphEdge.actorId =
        ((edges.filter fun e => e.counterpartyId = c.event.counterpartyId).map GraphEdge.actorId).map ρ := by
    rw [List.filter_map, h.event.counterpartyId, List.map_map, List.map_map]
    refine congrArg _ (List.filter_congr fun e _ => decide_eq_decide.2 ?_)
    exact hρ.eq_iff
  rw [hselected, List.dedup_map_of_injective hρ, count_renamed]

theorem shared_renamed (edges : List GraphEdge) :
    (count (((neighbors (edges.map (GraphEdge.rename ρ))).getD c'.event.actorId []).filter fun node =>
      node ∈ (neighbors (edges.map (GraphEdge.rename ρ))).getD c'.event.counterpartyId []) : F) =
        count (((neighbors edges).getD c.event.actorId []).filter fun node =>
          node ∈ (neighbors edges).getD c.event.counterpartyId []) := by
  rw [h.event.actorId, h.event.counterpartyId, neighbors_renamed hρ, neighbors_renamed hρ, List.filter_map, count_renamed]
  refine congrArg count (List.filter_congr fun node _ => decide_eq_decide.2 ?_)
  exact List.mem_map_of_injective hρ

theorem twoHop_renamed (edges : List GraphEdge) :
    (count ((((neighbors (edges.map (GraphEdge.rename ρ))).getD c'.event.actorId []).flatMap fun node =>
      (neighbors (edges.map (GraphEdge.rename ρ))).getD node []).dedup.filter fun node =>
        node ∉ (neighbors (edges.map (GraphEdge.rename ρ))).getD c'.event.actorId [] && node ≠ c'.event.actorId) : F) =
      count ((((neighbors edges).getD c.event.actorId []).flatMap fun node => (neighbors edges).getD node []).dedup.filter
        fun node => node ∉ (neighbors edges).getD c.event.actorId [] && node ≠ c.event.actorId) := by
  have hnext : (((neighbors edges).getD c.event.actorId []).map ρ).flatMap (fun node =>
      (neighbors (edges.map (GraphEdge.rename ρ))).getD node []) =
        (((neighbors edges).getD c.event.actorId []).flatMap fun node => (neighbors edges).getD node []).map ρ := by
    rw [List.flatMap_map, List.map_flatMap]
    exact List.flatMap_congr fun node _ => neighbors_renamed hρ edges node
  rw [h.event.actorId, neighbors_renamed hρ, hnext, List.dedup_map_of_injective hρ, List.filter_map, count_renamed]
  refine congrArg count (List.filter_congr fun node _ => ?_)
  dsimp only [Function.comp_apply]
  rw [decide_eq_decide.2 (not_congr (List.mem_map_of_injective hρ)), decide_eq_decide.2 (not_congr hρ.eq_iff)]

/-- the component has its nodes under the other names, and as many edges -/
theorem component_renamed (edges : List GraphEdge) :
    (c'.component (edges.map (GraphEdge.rename ρ))).1 = (c.component edges).1.map ρ ∧
      (c'.component (edges.map (GraphEdge.rename ρ))).2.length = (c.component edges).2.length := by
  have hseeds : [c'.event.actorId, c'.event.counterpartyId].dedup.filter
      (· ∈ (neighbors (edges.map (GraphEdge.rename ρ))).keys) =
        ([c.event.actorId, c.event.counterpartyId].dedup.filter (· ∈ (neighbors edges).keys)).map ρ := by
    have hparties : [c'.event.actorId, c'.event.counterpartyId] = [c.event.actorId, c.event.counterpartyId].map ρ := by
      rw [h.event.actorId, h.event.counterpartyId, List.map_cons, List.map_singleton]
    rw [hparties, List.dedup_map_of_injective hρ, List.filter_map]
    refine congrArg _ (List.filter_congr fun a _ => decide_eq_decide.2 ?_)
    exact keys_renamed hρ edges a
  have hnodes : (c'.component (edges.map (GraphEdge.rename ρ))).1 = (c.component edges).1.map ρ := by
    have hexplore := Components.explore_map hρ (neighbors_renamed hρ edges) []
      ([c.event.actorId, c.event.counterpartyId].dedup.filter (· ∈ (neighbors edges).keys))
    rw [component, component]
    dsimp only
    rw [hseeds]
    exact hexplore
  refine ⟨hnodes, ?_⟩
  have hedges : (c'.component (edges.map (GraphEdge.rename ρ))).2 =
      ((edges.filter fun e => e.actorId ∈ (c.component edges).1 && e.counterpartyId ∈ (c.component edges).1).map fun e =>
        Components.undirected (Prod.map ρ ρ e.ends)).dedup := by
    have hsecond : (c'.component (edges.map (GraphEdge.rename ρ))).2 =
        (((edges.map (GraphEdge.rename ρ)).filter fun e =>
          e.actorId ∈ (c'.component (edges.map (GraphEdge.rename ρ))).1 &&
            e.counterpartyId ∈ (c'.component (edges.map (GraphEdge.rename ρ))).1).map fun e =>
              Components.undirected e.ends).dedup := rfl
    rw [hsecond, hnodes, List.filter_map, List.map_map]
    refine congrArg List.dedup (congrArg _ (List.filter_congr fun e _ => ?_))
    refine congrArg₂ (· && ·) (decide_eq_decide.2 ?_) (decide_eq_decide.2 ?_)
    · exact List.mem_map_of_injective hρ
    · exact List.mem_map_of_injective hρ
  have hold : (c.component edges).2 =
      ((edges.filter fun e => e.actorId ∈ (c.component edges).1 && e.counterpartyId ∈ (c.component edges).1).map fun e =>
        Components.undirected e.ends).dedup := rfl
  rw [hedges, hold]
  exact Components.length_dedup_congr fun _ _ _ _ => Components.undirected_map_iff hρ

theorem repeated_renamed (edges : List GraphEdge) :
    (flag ((edges.map (GraphEdge.rename ρ)).any fun e =>
      e.actorId = c'.event.actorId && e.counterpartyId = c'.event.counterpartyId) : F) =
        flag (edges.any fun e => e.actorId = c.event.actorId && e.counterpartyId = c.event.counterpartyId) := by
  rw [h.event.actorId, h.event.counterpartyId, List.any_map]
  simp only [Function.comp_def, GraphEdge.rename, hρ.eq_iff]

theorem burst_renamed (edges : List GraphEdge) :
    (count ((edges.map (GraphEdge.rename ρ)).filter fun e =>
      e.actorId = c'.event.actorId || e.counterpartyId = c'.event.counterpartyId) : F) =
        count (edges.filter fun e => e.actorId = c.event.actorId || e.counterpartyId = c.event.counterpartyId) := by
  rw [h.event.actorId, h.event.counterpartyId, List.filter_map, count_renamed]
  simp only [Function.comp_def, GraphEdge.rename, hρ.eq_iff]

theorem suspicious_renamed (edges : List GraphEdge) :
    (count ((edges.map (GraphEdge.rename ρ)).filter fun e => e.suspicious && e.actorId = c'.event.actorId) : F) =
      count (edges.filter fun e => e.suspicious && e.actorId = c.event.actorId) := by
  rw [h.event.actorId, List.filter_map, count_renamed]
  simp only [Function.comp_def, GraphEdge.rename, hρ.eq_iff]

end

/-- **Features under other names** are the same, read from the same sources. -/
theorem methods_renamed (hρ : Function.Injective ρ) (hg : ∀ e : ObservedEvent, e.Renamed ρ (g e)) (h : Renames ρ g c c') :
    ∀ p ∈ (methods : List (String × (FeatureContext → Sourced F))), p.2 c' = p.2 c := by
  have hactor : ∀ w, c'.actor w = (c.actor w).map (List.map g) := fun w => h.actor w none
  have hcounterparty : ∀ w, c'.counterparty w = (c.counterparty w).map (List.map g) := fun w => h.counterparty w none
  have hpair : ∀ w, c'.pair w = (c.pair w).map (List.map g) := fun w => h.pair w none
  have hamounts : ∀ b, c'.amountEvents b = (c.amountEvents b).map (List.map g) := by
    intro b
    cases b with
    | true => exact h.actorAmount (some day) none
    | false => exact h.counterpartyAmount (some day) none
  have hhistory : c'.history24h = c.history24h.map (List.map g) := h.admitted (some day) none
  have hedges := graphEdges_renamed h
  -- one equation for each way of reading a list
  have hcount : ∀ x : Sourced (List ObservedEvent), (x.map (List.map g)).map (count : _ → F) = x.map count :=
    Sourced.map_congr (count_renamed g)
  have hsum : ∀ x : Sourced (List ObservedEvent), (x.map (List.map g)).map (sumAmounts : _ → F) = x.map sumAmounts :=
    Sourced.map_congr (sumAmounts_renamed hg)
  have helapsed : ∀ first, ∀ x : Sourced (List ObservedEvent),
      (x.map (List.map g)).map (c'.elapsed first : _ → F) = x.map (c.elapsed first) :=
    fun first => Sourced.map_congr (elapsed_renamed hg h first)
  have hzscore : ∀ x : Sourced (List ObservedEvent), (x.map (List.map g)).map (c'.zscore : _ → F) = x.map c.zscore :=
    Sourced.map_congr (zscore_renamed hg h)
  have hcounterparties : ∀ x : Sourced (List ObservedEvent),
      (x.map (List.map g)).map (fun es => (count (es.map ObservedEvent.counterpartyId).dedup : F)) =
        x.map fun es => count (es.map ObservedEvent.counterpartyId).dedup :=
    Sourced.map_congr (distinct_renamed hρ fun e => (hg e).counterpartyId)
  have hactors : ∀ x : Sourced (List ObservedEvent),
      (x.map (List.map g)).map (fun es => (count (es.map ObservedEvent.actorId).dedup : F)) =
        x.map fun es => count (es.map ObservedEvent.actorId).dedup :=
    Sourced.map_congr (distinct_renamed hρ fun e => (hg e).actorId)
  have hdegraded : (dqDegradedState c' : Sourced F) = dqDegradedState c := by
    rw [dqDegradedState, dqDegradedState, h.admitted, h.late, Sourced.map₂, Sourced.map₂, Sourced.map, Sourced.map]
    dsimp only
    rw [List.isEmpty_map, List.isEmpty_map]
  have hcurrent : (lagMs c'.event : F) = lagMs c.event := by
    rw [lagMs, lagMs, h.event.availableAt, h.event.eventTime]
  have hrefs : (count c'.event.optionalRefs.items : F) = count c.event.optionalRefs.items := by
    rw [count, count, h.event.length_refs]
  have hfanout : (graphActorFanout c' : Sourced F) = graphActorFanout c := by
    rw [graphActorFanout, graphActorFanout, hedges]
    exact Sourced.map_congr (fanout_renamed hρ h) _
  have hfanin : (graphCounterpartyFanin c' : Sourced F) = graphCounterpartyFanin c := by
    rw [graphCounterpartyFanin, graphCounterpartyFanin, hedges]
    exact Sourced.map_congr (fanin_renamed hρ h) _
  have hshared : (graphSharedNeighborCount c' : Sourced F) = graphSharedNeighborCount c := by
    rw [graphSharedNeighborCount, graphSharedNeighborCount, hedges]
    exact Sourced.map_congr (shared_renamed hρ h) _
  have htwoHop : (graphTwoHopReach c' : Sourced F) = graphTwoHopReach c := by
    rw [graphTwoHopReach, graphTwoHopReach, hedges]
    exact Sourced.map_congr (twoHop_renamed hρ h) _
  have hsize : (graphComponentSize c' : Sourced F) = graphComponentSize c := by
    rw [graphComponentSize, graphComponentSize, hedges]
    exact Sourced.map_congr (fun edges => by rw [(component_renamed hρ h edges).1, count_renamed]) _
  have hdensity : (graphEdgeDensity c' : Sourced F) = graphEdgeDensity c := by
    rw [graphEdgeDensity, graphEdgeDensity, hedges]
    refine Sourced.map_congr (fun edges => ?_) _
    rw [(component_renamed hρ h edges).1, (component_renamed hρ h edges).2, List.length_map]
  have hrepeated : (graphRepeatedEdge c' : Sourced F) = graphRepeatedEdge c := by
    rw [graphRepeatedEdge, graphRepeatedEdge, hedges]
    exact Sourced.map_congr (repeated_renamed hρ h) _
  have hburst : (graphBurstMotif c' : Sourced F) = graphBurstMotif c := by
    rw [graphBurstMotif, graphBurstMotif, hedges]
    exact Sourced.map_congr (burst_renamed hρ h) _
  have hsuspicious : (graphPriorSuspiciousCount c' : Sourced F) = graphPriorSuspiciousCount c := by
    rw [graphPriorSuspiciousCount, graphPriorSuspiciousCount, hedges]
    exact Sourced.map_congr (suspicious_renamed hρ h) _
  have hmeanLag : (dqMeanHistoryLagMs c' : Sourced F) = dqMeanHistoryLagMs c := by
    rw [dqMeanHistoryLagMs, dqMeanHistoryLagMs, hhistory]
    exact Sourced.map_congr (fmean_lag_renamed hg) _
  simp only [methods, List.forall_mem_cons, List.not_mem_nil, false_imp_iff, implies_true,
    txnLogAmount, txnRailCard, txnRailA2a, txnRailAgentic, txnRail, txnHourSin, txnHourCos, hourAngle, txnIntegrityPass,
    txnOptionalRefCount, dqMissingOptionalCount, dqCurrentAvailabilityLagMs, actorCount, actorCount1m, actorCount10m,
    actorCount1h, actorCount24h, actorAmount1h, actorAmount24h, counterpartyCount1h, counterpartyCount24h,
    counterpartyAmount24h, actorOutcomes, actorPriorDecline1h, actorPriorChallenge1h, actorPriorReturn24h,
    counterpartyPriorRefund24h, actorSecondsSinceFirst, actorSecondsSinceLast, counterpartySecondsSinceFirst,
    counterpartySecondsSinceLast, pairSecondsSinceFirst, pairSecondsSinceLast, actorDistinctCounterparties24h,
    counterpartyDistinctActors24h, actorAmountZscore24h, counterpartyAmountZscore24h, pairPriorCount, dqLateEventCount,
    dqHistoryCount, dqHistoryAgeSeconds, hfanout, hfanin, hshared, htwoHop, hsize, hdensity, hrepeated, hburst, hsuspicious,
    hmeanLag, hdegraded, hactor, hcounterparty, hpair, hamounts, hhistory, hcount, hsum, helapsed, hzscore, hcounterparties,
    hactors, h.actor, h.counterparty, h.actorAmount, h.admitted, h.late, hcurrent, hrefs, h.event.amount, h.event.rail,
    h.event.eventTime, h.event.integrityStatus, h.event.length_refs, and_self]

end FeatureContext

/-! ## Renamed histories -/

namespace CausalFeatureState

variable {F : Type} {catalog : FeatureCatalog} {ρ : String → String} {g : ObservedEvent → ObservedEvent}
  {s s' : CausalFeatureState} {es known : List ObservedEvent}

section

variable (hg : ∀ e : ObservedEvent, e.Renamed ρ (g e))

include hg

theorem ids_renamed (es : List ObservedEvent) : (es.map g).map ObservedEvent.eventId = es.map ObservedEvent.eventId := by
  rw [List.map_map]
  exact List.map_congr_left fun e _ => (hg e).eventId

theorem index_renamed {κ : Type} [DecidableEq κ] {key : ObservedEvent → κ} {k k' : κ}
    (hkey : ∀ e, key (g e) = k' ↔ key e = k) (es : List ObservedEvent) :
    (index key (es.map g)).getD k' [] = (index key es).getD k [] := by
  rw [getD_index, getD_index, List.filter_map, ids_renamed hg]
  exact congrArg _ (List.filter_congr fun e _ => decide_eq_decide.2 (hkey e))

theorem openings_renamed (es : List ObservedEvent) : openings (es.map g) = (openings es).map g := by
  induction es using List.reverseRecOn with
  | nil => rfl
  | append_singleton es e ih =>
    have hpayments : ((openings es).map g).map ObservedEvent.paymentId = (openings es).map ObservedEvent.paymentId := by
      rw [List.map_map]
      exact List.map_congr_left fun e _ => (hg e).paymentId
    rw [List.map_append, List.map_singleton, openings_concat, openings_concat, ih, hpayments, (hg e).isDecisionPoint,
      (hg e).paymentId]
    split_ifs
    · rw [List.map_append, List.map_singleton]
    · rfl

/-- what is selected of renamed events is what is selected, renamed -/
theorem events_renamed {e : ObservedEvent} {t : Time} {ids : List String}
    (h : ∀ id ∈ ids, s'.known.get? id = (s.known.get? id).map g) (w : Option ℤ) (o : Option (List EventKind)) :
    FeatureContext.events ⟨s', g e, t⟩ ids w o = (FeatureContext.events ⟨s, e, t⟩ ids w o).map (List.map g) := by
  have hknown : ids.filterMap s'.known.get? = (ids.filterMap s.known.get?).map g := by
    rw [List.map_filterMap]
    exact List.filterMap_congr h
  have hselected : ((ids.filterMap s.known.get?).map g).filter (fun x =>
      x.eventTime ≤ (g e).eventTime && w.all (fun w => (g e).eventTime - w ≤ x.eventTime) &&
        o.all (fun kinds => x.eventType ∈ kinds)) =
      ((ids.filterMap s.known.get?).filter fun x =>
        x.eventTime ≤ e.eventTime && w.all (fun w => e.eventTime - w ≤ x.eventTime) &&
          o.all (fun kinds => x.eventType ∈ kinds)).map g := by
    rw [List.filter_map, (hg e).eventTime]
    refine congrArg _ (List.filter_congr fun x _ => ?_)
    simp only [Function.comp_apply, (hg x).eventTime, (hg x).eventType]
  rw [FeatureContext.events, FeatureContext.events]
  dsimp only
  rw [hknown, hselected, ids_renamed hg]
  rfl

theorem renames_recorded (hρ : Function.Injective ρ) (h : Recorded s es) (h' : Recorded s' (es.map g))
    (hlate : s.lateEventIds = []) (hlate' : s'.lateEventIds = []) (e : ObservedEvent) (t : Time) :
    FeatureContext.Renames ρ g ⟨s, e, t⟩ ⟨s', g e, t⟩ := by
  have hes : ∀ id ∈ es.map ObservedEvent.eventId, s'.known.get? id = (s.known.get? id).map g := by
    intro id hid
    obtain ⟨x, hx, rfl⟩ := List.mem_map.1 hid
    have hx' := h'.known (g x) (List.mem_map_of_mem hx)
    rw [(hg x).eventId] at hx'
    rw [hx', h.known x hx]
    rfl
  have hselect : ∀ ids, (∀ id ∈ ids, id ∈ es.map ObservedEvent.eventId) → ∀ w o,
      FeatureContext.events ⟨s', g e, t⟩ ids w o = (FeatureContext.events ⟨s, e, t⟩ ids w o).map (List.map g) :=
    fun ids hids w o => events_renamed hg (fun id hid => hes id (hids id hid)) w o
  have hactor : ∀ x : ObservedEvent, (g x).actorId = ρ e.actorId ↔ x.actorId = e.actorId := by
    intro x
    rw [(hg x).actorId, hρ.eq_iff]
  have hcounterparty : ∀ x : ObservedEvent, (g x).counterpartyId = ρ e.counterpartyId ↔ x.counterpartyId = e.counterpartyId := by
    intro x
    rw [(hg x).counterpartyId, hρ.eq_iff]
  have hdecisions : (es.map g).filter ObservedEvent.isDecisionPoint = (es.filter ObservedEvent.isDecisionPoint).map g := by
    rw [List.filter_map]
    exact congrArg _ (List.filter_congr fun x _ => (hg x).isDecisionPoint)
  refine ⟨hg e, fun w o => ?_, fun w o => ?_, fun w o => ?_, fun w o => ?_, fun w o => ?_, fun w o => ?_, fun w o => ?_, ?_⟩
  · dsimp only
    rw [h.actor, h'.actor, (hg e).actorId, index_renamed hg hactor]
    exact hselect _ (fun _ => FeatureContext.mem_index) w o
  · dsimp only
    rw [h.counterparty, h'.counterparty, (hg e).counterpartyId, index_renamed hg hcounterparty]
    exact hselect _ (fun _ => FeatureContext.mem_index) w o
  · dsimp only
    rw [h.pair, h'.pair, (hg e).actorId, (hg e).counterpartyId, index_renamed hg fun x => by
      rw [Prod.mk.injEq, Prod.mk.injEq, hactor, hcounterparty]]
    exact hselect _ (fun _ => FeatureContext.mem_index) w o
  · dsimp only
    rw [h.actorAmount, h'.actorAmount, (hg e).actorId, hdecisions, index_renamed hg hactor]
    exact hselect _ (fun _ => FeatureContext.mem_index_decisions) w o
  · dsimp only
    rw [h.counterpartyAmount, h'.counterpartyAmount, (hg e).counterpartyId, hdecisions, index_renamed hg hcounterparty]
    exact hselect _ (fun _ => FeatureContext.mem_index_decisions) w o
  · dsimp only
    rw [h.ids, h'.ids, ids_renamed hg]
    exact hselect _ (fun _ => id) w o
  · dsimp only
    rw [hlate, hlate']
    exact events_renamed hg (fun id hid => absurd hid List.not_mem_nil) w o
  · dsimp only
    rw [h.edges, h'.edges, openings_renamed hg, List.map_map, List.map_map]
    exact List.map_congr_left fun x _ => (hg x).edge

/-- **A row under other names** is the row. -/
theorem compute_renamed [FeatureMath F] (hρ : Function.Injective ρ) (h : Recorded s es) (h' : Recorded s' (es.map g))
    (hkeyed : Keyed s.known) (hlate : s.lateEventIds = []) (hlate' : s'.lateEventIds = []) (e : ObservedEvent) (t : Time) :
    compute (F := F) catalog s' (g e) t = compute catalog s e t := by
  have hrenames := renames_recorded hg hρ h h' hlate hlate' e t
  have hderive : catalog.features.mapM (derive (F := F) ⟨s', g e, t⟩) = catalog.features.mapM (derive ⟨s, e, t⟩) := by
    refine mapM_congr_mem fun d _ => ?_
    rw [derive, derive]
    cases hmethod : Assoc.get? d.name (FeatureContext.methods (F := F)) with
    | none => rfl
    | some method =>
      have hsame := FeatureContext.methods_renamed (F := F) hρ hg hrenames _ (Assoc.mem_of_get? hmethod)
      dsimp only at hsame ⊢
      rw [hsame]
  rw [compute, compute, hderive]
  cases hderived : catalog.features.mapM (derive (F := F) ⟨s, e, t⟩) with
  | error error => rfl
  | ok derived =>
    have htimes : ((sortedSet (derived.flatMap Sourced.sources)).filterMap s'.known.get?).map ObservedEvent.availableAt =
        ((sortedSet (derived.flatMap Sourced.sources)).filterMap s.known.get?).map ObservedEvent.availableAt := by
      have hknown : (sortedSet (derived.flatMap Sourced.sources)).filterMap s'.known.get? =
          ((sortedSet (derived.flatMap Sourced.sources)).filterMap s.known.get?).map g := by
        rw [List.map_filterMap]
        refine List.filterMap_congr fun id hid => ?_
        obtain ⟨y, hy, hid⟩ := List.mem_flatMap.1 (mem_sortedSet.1 hid)
        obtain ⟨d, -, hd⟩ := forall₂_mem_right (mapM_eq_ok.1 hderived) hy
        rcases derive_sources (FeatureContext.reads_recorded h hkeyed e t) hd id hid with hes | hes
        · obtain ⟨x, hx, rfl⟩ := List.mem_map.1 hes
          have hx' := h'.known (g x) (List.mem_map_of_mem hx)
          rw [(hg x).eventId] at hx'
          rw [hx', h.known x hx]
          rfl
        · rw [hlate] at hes
          cases hes
      rw [hknown, List.map_map]
      exact List.map_congr_left fun x _ => (hg x).availableAt
    rw [except_ok_bind, except_ok_bind]
    dsimp only
    rw [htimes, (hg e).eventId]

/-! ## Renamed sets of events -/

theorem decisions_renamed (known : List ObservedEvent) :
    decisions (known.map g) = (decisions known).map (Prod.map id g) := by
  have hpoints : known.filter (ObservedEvent.isDecisionPoint ∘ g) = known.filter ObservedEvent.isDecisionPoint :=
    List.filter_congr fun e _ => (hg e).isDecisionPoint
  rw [decisions, decisions, List.filter_map, List.filterMap_map, List.map_filterMap, hpoints]
  refine List.filterMap_congr fun e _ => ?_
  rw [Function.comp_apply, (hg e).decisionAt]
  cases e.decisionAt <;> rfl

theorem decidedAt_renamed (known : List ObservedEvent) (d : Time) :
    (decidedAt (known.map g) d).map ObservedEvent.eventId = (decidedAt known d).map ObservedEvent.eventId := by
  rw [decidedAt, decidedAt, decisions_renamed hg, List.filter_map, List.map_map, List.map_map, List.map_map]
  exact List.map_congr_left fun p _ => (hg p.2).eventId

theorem decisionTimes_renamed (known : List ObservedEvent) : decisionTimes (known.map g) = decisionTimes known := by
  rw [decisionTimes, decisionTimes, decisions_renamed hg, List.map_map]
  rfl

theorem admitAt_renamed (known es : List ObservedEvent) (d : Time) :
    admitAt (known.map g) (es.map g) d = (admitAt known es d).map g := by
  have hkey : (fun e => admissionKey (g e)) = admissionKey := by
    funext e
    rw [admissionKey, admissionKey, (hg e).availableAt, (hg e).eventId]
  rw [admitAt, admitAt, List.map_append, ids_renamed hg, decidedAt_renamed hg, List.filter_map, ← map_sortBy, hkey]
  refine congrArg (es.map g ++ ·) (congrArg (fun xs => (sortBy admissionKey xs).map g) (List.filter_congr fun e _ => ?_))
  rw [Function.comp_apply, (hg e).eventId, (hg e).availableAt]

/-- **Histories under other names** are the renamed histories. -/
theorem historyAt_renamed (known : List ObservedEvent) (d : Time) :
    historyAt (known.map g) d = (historyAt known d).map g := by
  rw [historyAt, historyAt, decisionTimes_renamed hg]
  generalize (decisionTimes known).filter (· ≤ d) = ts
  induction ts using List.reverseRecOn with
  | nil => rfl
  | append_singleton ts u ih =>
    rw [List.foldl_append, List.foldl_append, ih, List.foldl_cons, List.foldl_nil, List.foldl_cons, List.foldl_nil,
      admitAt_renamed hg]

theorem matrix_renamed [FeatureMath F] (hρ : Function.Injective ρ) (hnodup : (known.map ObservedEvent.eventId).Nodup) :
    matrix (F := F) catalog (known.map g) = matrix catalog known := by
  have hkey : (fun p => decisionSortKey (Prod.map id g p)) = decisionSortKey := by
    funext p
    exact congrArg (fun id => toLex (p.1, id)) (hg p.2).eventId
  rw [matrix, matrix, decisions_renamed hg, ← map_sortBy, hkey, List.mapM_map]
  refine mapM_congr_mem fun p _ => ?_
  have hids := historyAt_nodup hnodup p.1
  obtain ⟨hrecorded, hkeyed, hlate⟩ := holding_frame hids
  obtain ⟨hrecorded', -, hlate'⟩ := @holding_frame ((historyAt known p.1).map g) (by rwa [ids_renamed hg])
  rw [Function.comp_apply, rowOf, rowOf, Prod.map_fst, Prod.map_snd, id, historyAt_renamed hg]
  exact compute_renamed hg hρ hrecorded hrecorded' hkeyed hlate hlate' p.2 p.1

end

/-- the actor ids, the counterparty ids and the values of the optional references -/
def names (events : List ObservedEvent) : Set String :=
  {n | ∃ e ∈ events, n = e.actorId ∨ n = e.counterpartyId ∨ n ∈ e.optionalRefs.values}

theorem names_finite (events : List ObservedEvent) : (names events).Finite := by
  refine (List.finite_toSet (events.flatMap fun e => e.actorId :: e.counterpartyId :: e.optionalRefs.values)).subset ?_
  intro n ⟨e, he, hn⟩
  refine List.mem_flatMap.2 ⟨e, he, ?_⟩
  rw [List.mem_cons, List.mem_cons]
  exact hn

theorem Renamed.congr {ρ σ : String → String} {e e' : ObservedEvent} (h : e.Renamed ρ e') {events : List ObservedEvent}
    (he : e ∈ events) (hσ : ∀ n ∈ names events, σ n = ρ n) : e.Renamed σ e' := by
  refine { h with actorId := ?_, counterpartyId := ?_, refs := fun name => ?_ }
  · rw [h.actorId, hσ _ ⟨e, he, .inl rfl⟩]
  · rw [h.counterpartyId, hσ _ ⟨e, he, .inr (.inl rfl)⟩]
  · rw [h.refs]
    cases hget : e.optionalRefs.get? name with
    | none => rfl
    | some v =>
      have hmem : v ∈ e.optionalRefs.values := List.mem_map.2 ⟨(name, v), Dict.get?_eq_some.1 hget, rfl⟩
      rw [Option.map_some, Option.map_some, hσ v ⟨e, he, .inr (.inr hmem)⟩]

theorem EventSet.renamed {events : List ObservedEvent} (h : EventSet events) (hg : ∀ e : ObservedEvent, e.Renamed ρ (g e)) :
    EventSet (events.map g) where
  unambiguous := by
    intro e he x hx hid
    obtain ⟨e₀, he₀, rfl⟩ := List.mem_map.1 he
    obtain ⟨x₀, hx₀, rfl⟩ := List.mem_map.1 hx
    rw [(hg e₀).eventId, (hg x₀).eventId] at hid
    rw [h.unambiguous e₀ he₀ x₀ hx₀ hid]
  timely := by
    intro e he
    obtain ⟨e₀, he₀, rfl⟩ := List.mem_map.1 he
    rw [(hg e₀).eventTime, (hg e₀).availableAt]
    exact h.timely e₀ he₀
  decided := by
    intro e he hdecision
    obtain ⟨e₀, he₀, rfl⟩ := List.mem_map.1 he
    rw [(hg e₀).isDecisionPoint] at hdecision
    rw [(hg e₀).decisionAt, (hg e₀).availableAt]
    exact h.decided e₀ he₀ hdecision

/-- **One-shot construction under other names**: an injective renaming of the names of a set of events changes no row. -/
theorem buildFeatureMatrix_renamed [FeatureMath F] {events : List ObservedEvent} (h : EventSet events)
    (hρ : Set.InjOn ρ (names events)) (hg : ∀ e ∈ events, e.Renamed ρ (g e)) :
    buildFeatureMatrix (F := F) catalog (events.map g) = buildFeatureMatrix catalog events := by
  classical
  obtain ⟨σ, hσ, hsame⟩ := FreshNames.exists_injective_extension (names_finite events) hρ
  let total : ObservedEvent → ObservedEvent := fun e => if e ∈ events then g e else e.rename σ
  have htotal : ∀ e : ObservedEvent, e.Renamed σ (total e) := by
    intro e
    by_cases he : e ∈ events
    · rw [show total e = g e from if_pos he]
      exact Renamed.congr (hg e he) he hsame
    · rw [show total e = e.rename σ from if_neg he]
      exact e.renamed_rename σ
  have hmap : events.map g = events.map total := List.map_congr_left fun e he => (if_pos he).symm
  rw [hmap]
  obtain ⟨known, hnodup, hmem, hbuild⟩ := @buildFeatureMatrix_eq F catalog _ events h
  obtain ⟨known', hnodup', hmem', hbuild'⟩ := @buildFeatureMatrix_eq F catalog _ _ (EventSet.renamed h htotal)
  have hids : ((known.map total).map ObservedEvent.eventId).Nodup := by
    rw [ids_renamed htotal]
    exact hnodup
  have hmembers : ∀ e, e ∈ known.map total ↔ e ∈ known' := by
    intro e
    rw [hmem', List.mem_map, List.mem_map]
    exact exists_congr fun x => and_congr_left fun _ => hmem x
  rw [hbuild, hbuild', ← matrix_renamed (F := F) htotal hσ hnodup]
  refine (matrix_congr hids hnodup' hmembers fun e he => ?_).symm
  exact (EventSet.renamed h htotal).decided e ((hmem' e).1 ((hmembers e).1 he))

end CausalFeatureState

end Apar
