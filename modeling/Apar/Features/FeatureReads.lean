/-
What the features of a decision read of the state (`_FeatureContext` of `features/state.py`).

Every feature is a function of the decision, of the edges, and of what `_events` selects from seven lists of ids: the
histories of the actor, the counterparty and the pair, the two amount histories, the admitted and the late events.

- `methods_alike`: contexts that agree on these have the same features, with the same sources.
- `methods_sources`: what a feature reads is admitted or late.
- `compute_congr`, `compute_sources`: so a row is a function of the recorded history and of what is late.
-/
import Apar.Features.CausalHistory
import Apar.Features.CausalProcess

namespace Apar

open Exec

namespace FeatureContext

variable {F : Type} [FeatureMath F]

/-- two contexts that the features do not tell apart -/
structure Alike (c c' : FeatureContext) : Prop where
  event : c'.event = c.event
  actor : ∀ w o, c'.events (c'.state.actorHistory.getD c.event.actorId []) w o =
    c.events (c.state.actorHistory.getD c.event.actorId []) w o
  counterparty : ∀ w o, c'.events (c'.state.counterpartyHistory.getD c.event.counterpartyId []) w o =
    c.events (c.state.counterpartyHistory.getD c.event.counterpartyId []) w o
  pair : ∀ w o, c'.events (c'.state.pairHistory.getD (c.event.actorId, c.event.counterpartyId) []) w o =
    c.events (c.state.pairHistory.getD (c.event.actorId, c.event.counterpartyId) []) w o
  actorAmount : ∀ w o, c'.events (c'.state.actorAmountHistory.getD c.event.actorId []) w o =
    c.events (c.state.actorAmountHistory.getD c.event.actorId []) w o
  counterpartyAmount : ∀ w o, c'.events (c'.state.counterpartyAmountHistory.getD c.event.counterpartyId []) w o =
    c.events (c.state.counterpartyAmountHistory.getD c.event.counterpartyId []) w o
  admitted : ∀ w o, c'.events c'.state.admittedIds w o = c.events c.state.admittedIds w o
  late : ∀ w o, c'.events c'.state.lateEventIds w o = c.events c.state.lateEventIds w o
  edges : c'.state.edges = c.state.edges

/-- **Contexts that are alike have the same features.** -/
theorem methods_alike {c c' : FeatureContext} (h : Alike c c') :
    ∀ p ∈ (methods : List (String × (FeatureContext → Sourced F))), p.2 c' = p.2 c := by
  have hactor : ∀ w, c'.actor w = c.actor w := fun w => by rw [actor, actor, h.event, h.actor]
  have hcounterparty : ∀ w, c'.counterparty w = c.counterparty w := fun w => by
    rw [counterparty, counterparty, h.event, h.counterparty]
  have hpair : ∀ w, c'.pair w = c.pair w := fun w => by rw [pair, pair, h.event, h.pair]
  have hamounts : ∀ b, c'.amountEvents b = c.amountEvents b := by
    intro b
    cases b with
    | true =>
      rw [amountEvents, amountEvents, h.event]
      exact h.actorAmount (some day) none
    | false =>
      rw [amountEvents, amountEvents, h.event]
      exact h.counterpartyAmount (some day) none
  have hedges : ∀ w, c'.graphEdges w = c.graphEdges w := fun w => by rw [graphEdges, graphEdges, h.event, h.edges]
  have hhistory : c'.history24h = c.history24h := h.admitted (some day) none
  have helapsed : ∀ first, (c'.elapsed first : List ObservedEvent → F) = c.elapsed first := fun first => by
    funext es
    rw [elapsed, elapsed, h.event]
  have hzscore : (c'.zscore : List ObservedEvent → F) = c.zscore := by
    funext es
    rw [zscore, zscore, h.event]
  have hcomponent : c'.component = c.component := by
    funext es
    rw [component, component, h.event]
  simp only [methods, List.forall_mem_cons, List.not_mem_nil, false_imp_iff, implies_true, and_true,
    txnLogAmount, txnRailCard, txnRailA2a, txnRailAgentic, txnRail, txnHourSin, txnHourCos, hourAngle, txnIntegrityPass,
    txnOptionalRefCount, dqMissingOptionalCount, dqCurrentAvailabilityLagMs, actorCount, actorCount1m, actorCount10m,
    actorCount1h, actorCount24h, actorAmount1h, actorAmount24h, counterpartyCount1h, counterpartyCount24h,
    counterpartyAmount24h, actorOutcomes, actorPriorDecline1h, actorPriorChallenge1h, actorPriorReturn24h,
    counterpartyPriorRefund24h, actorSecondsSinceFirst, actorSecondsSinceLast, counterpartySecondsSinceFirst,
    counterpartySecondsSinceLast, pairSecondsSinceFirst, pairSecondsSinceLast, actorDistinctCounterparties24h,
    counterpartyDistinctActors24h, actorAmountZscore24h, counterpartyAmountZscore24h, pairPriorCount, graphActorFanout,
    graphCounterpartyFanin, graphSharedNeighborCount, graphTwoHopReach, graphComponentSize, graphEdgeDensity,
    graphRepeatedEdge, graphBurstMotif, graphPriorSuspiciousCount, dqMeanHistoryLagMs, dqLateEventCount, dqHistoryCount,
    dqHistoryAgeSeconds, dqDegradedState, h.event, hactor, hcounterparty, hpair, hamounts, hedges, hhistory, helapsed,
    hzscore, hcomponent, h.actor, h.counterparty, h.actorAmount, h.admitted, h.late]

/-! ## Sources -/

end FeatureContext

namespace Sourced

variable {α β γ : Type} {P : String → Prop}

/-- everything that was read is of a kind -/
def Within (P : String → Prop) (x : Sourced α) : Prop := ∀ id ∈ x.sources, P id

@[simp] theorem within_current (a : α) : (current a).Within P := fun _ h => absurd h List.not_mem_nil

@[simp] theorem within_map (f : α → β) (x : Sourced α) : (map f x).Within P ↔ x.Within P := Iff.rfl

@[simp] theorem within_map₂ (f : α → β → γ) (x : Sourced α) (y : Sourced β) :
    (map₂ f x y).Within P ↔ x.Within P ∧ y.Within P := List.forall_mem_append

end Sourced

namespace FeatureContext

variable {F : Type} [FeatureMath F]

open CausalFeatureState

/-- the lists of ids that the features select from are of a kind -/
structure Reads (P : String → Prop) (c : FeatureContext) : Prop where
  keyed : Keyed c.state.known
  actor : ∀ id ∈ c.state.actorHistory.getD c.event.actorId [], P id
  counterparty : ∀ id ∈ c.state.counterpartyHistory.getD c.event.counterpartyId [], P id
  pair : ∀ id ∈ c.state.pairHistory.getD (c.event.actorId, c.event.counterpartyId) [], P id
  actorAmount : ∀ id ∈ c.state.actorAmountHistory.getD c.event.actorId [], P id
  counterpartyAmount : ∀ id ∈ c.state.counterpartyAmountHistory.getD c.event.counterpartyId [], P id
  admitted : ∀ id ∈ c.state.admittedIds, P id
  late : ∀ id ∈ c.state.lateEventIds, P id
  edges : ∀ e ∈ c.state.edges, P e.eventId

theorem within_events {P : String → Prop} {c : FeatureContext} (hkeyed : Keyed c.state.known) {ids : List String}
    (h : ∀ id ∈ ids, P id) (w : Option ℤ) (o : Option (List EventKind)) : (c.events ids w o).Within P := by
  intro id hid
  obtain ⟨e, he, rfl⟩ := List.mem_map.1 hid
  obtain ⟨k, hk, hget⟩ := List.mem_filterMap.1 (List.mem_of_mem_filter he)
  rw [hkeyed k e hget]
  exact h k hk

/-- **The sources of a feature** are of the kind of what it may read. -/
theorem methods_sources {P : String → Prop} {c : FeatureContext} (h : Reads P c) :
    ∀ p ∈ (methods : List (String × (FeatureContext → Sourced F))), (p.2 c).Within P := by
  have hactor : ∀ w o, (c.events (c.state.actorHistory.getD c.event.actorId []) w o).Within P := within_events h.keyed h.actor
  have hcounterparty : ∀ w o, (c.events (c.state.counterpartyHistory.getD c.event.counterpartyId []) w o).Within P :=
    within_events h.keyed h.counterparty
  have hpair : ∀ w o, (c.events (c.state.pairHistory.getD (c.event.actorId, c.event.counterpartyId) []) w o).Within P :=
    within_events h.keyed h.pair
  have hactorAmount : ∀ w o, (c.events (c.state.actorAmountHistory.getD c.event.actorId []) w o).Within P :=
    within_events h.keyed h.actorAmount
  have hamounts : ∀ b, (c.amountEvents b).Within P := by
    intro b
    cases b with
    | true => exact hactorAmount _ _
    | false => exact within_events h.keyed h.counterpartyAmount _ _
  have hadmitted : ∀ w o, (c.events c.state.admittedIds w o).Within P := within_events h.keyed h.admitted
  have hlate : ∀ w o, (c.events c.state.lateEventIds w o).Within P := within_events h.keyed h.late
  have hedges : ∀ w, (c.graphEdges w).Within P := by
    intro w id hid
    obtain ⟨e, he, rfl⟩ := List.mem_map.1 hid
    exact h.edges e (List.mem_of_mem_filter he)
  simp only [methods, List.forall_mem_cons, List.not_mem_nil, false_imp_iff, implies_true, and_true,
    txnLogAmount, txnRailCard, txnRailA2a, txnRailAgentic, txnRail, txnHourSin, txnHourCos, txnIntegrityPass,
    txnOptionalRefCount, dqMissingOptionalCount, dqCurrentAvailabilityLagMs, actorCount, actorCount1m, actorCount10m,
    actorCount1h, actorCount24h, actorAmount1h, actorAmount24h, counterpartyCount1h, counterpartyCount24h,
    counterpartyAmount24h, actorOutcomes, actorPriorDecline1h, actorPriorChallenge1h, actorPriorReturn24h,
    counterpartyPriorRefund24h, actorSecondsSinceFirst, actorSecondsSinceLast, counterpartySecondsSinceFirst,
    counterpartySecondsSinceLast, pairSecondsSinceFirst, pairSecondsSinceLast, actorDistinctCounterparties24h,
    counterpartyDistinctActors24h, actorAmountZscore24h, counterpartyAmountZscore24h, pairPriorCount, graphActorFanout,
    graphCounterpartyFanin, graphSharedNeighborCount, graphTwoHopReach, graphComponentSize, graphEdgeDensity,
    graphRepeatedEdge, graphBurstMotif, graphPriorSuspiciousCount, dqMeanHistoryLagMs, dqLateEventCount, dqHistoryCount,
    dqHistoryAgeSeconds, dqDegradedState, actor, counterparty, pair, history24h, Sourced.within_current, Sourced.within_map,
    Sourced.within_map₂, hactor, hcounterparty, hpair, hactorAmount, hamounts, hadmitted, hlate, hedges]

/-! ## Contexts of a recorded history -/

variable {es : List ObservedEvent}

/-- what a history lists is admitted -/
theorem mem_index {κ : Type} [DecidableEq κ] {key : ObservedEvent → κ} {k : κ} {id : String}
    (h : id ∈ (index key es).getD k []) : id ∈ es.map ObservedEvent.eventId := by
  rw [getD_index] at h
  exact (List.filter_sublist.map _).subset h

theorem mem_index_decisions {κ : Type} [DecidableEq κ] {key : ObservedEvent → κ} {k : κ} {id : String}
    (h : id ∈ (index key (es.filter ObservedEvent.isDecisionPoint)).getD k []) : id ∈ es.map ObservedEvent.eventId :=
  (List.filter_sublist.map _).subset (mem_index h)

theorem reads_recorded {s : CausalFeatureState} (h : Recorded s es) (hkeyed : Keyed s.known) (e : ObservedEvent)
    (t : Time) :
    Reads (fun id => id ∈ es.map ObservedEvent.eventId ∨ id ∈ s.lateEventIds) ⟨s, e, t⟩ where
  keyed := hkeyed
  actor id hid := .inl (mem_index (h.actor ▸ hid))
  counterparty id hid := .inl (mem_index (h.counterparty ▸ hid))
  pair id hid := .inl (mem_index (h.pair ▸ hid))
  actorAmount id hid := .inl (mem_index_decisions (h.actorAmount ▸ hid))
  counterpartyAmount id hid := .inl (mem_index_decisions (h.counterpartyAmount ▸ hid))
  admitted id hid := .inl (h.ids ▸ hid)
  late id hid := .inr hid
  edges g hg := by
    rw [h.edges] at hg
    obtain ⟨x, hx, rfl⟩ := List.mem_map.1 hg
    exact .inl (List.mem_map_of_mem (openings_subset es hx))

theorem events_congr {c c' : FeatureContext} (hevent : c'.event = c.event) {ids : List String}
    (h : ∀ id ∈ ids, c'.state.known.get? id = c.state.known.get? id) (w : Option ℤ) (o : Option (List EventKind)) :
    c'.events ids w o = c.events ids w o := by
  rw [events, events, hevent, List.filterMap_congr h]

/-- states with the same recorded history and the same late events look alike to a decision -/
theorem alike_recorded {s s' : CausalFeatureState} (h : Recorded s es) (h' : Recorded s' es)
    (hlate : s'.lateEventIds = s.lateEventIds) (hknown : ∀ id ∈ s.lateEventIds, s'.known.get? id = s.known.get? id)
    (e : ObservedEvent) (t : Time) : Alike ⟨s, e, t⟩ ⟨s', e, t⟩ := by
  have hes : ∀ id ∈ es.map ObservedEvent.eventId, s'.known.get? id = s.known.get? id := by
    intro id hid
    obtain ⟨x, hx, rfl⟩ := List.mem_map.1 hid
    rw [h'.known x hx, h.known x hx]
  have hsame : ∀ ids, (∀ id ∈ ids, id ∈ es.map ObservedEvent.eventId) → ∀ w o,
      FeatureContext.events ⟨s', e, t⟩ ids w o = FeatureContext.events ⟨s, e, t⟩ ids w o := fun ids hids w o =>
    @events_congr ⟨s, e, t⟩ ⟨s', e, t⟩ rfl _ (fun id hid => hes id (hids id hid)) w o
  refine ⟨rfl, fun w o => ?_, fun w o => ?_, fun w o => ?_, fun w o => ?_, fun w o => ?_, fun w o => ?_, fun w o => ?_, ?_⟩
  · rw [h.actor, h'.actor]
    exact hsame _ (fun _ => mem_index) w o
  · rw [h.counterparty, h'.counterparty]
    exact hsame _ (fun _ => mem_index) w o
  · rw [h.pair, h'.pair]
    exact hsame _ (fun _ => mem_index) w o
  · rw [h.actorAmount, h'.actorAmount]
    exact hsame _ (fun _ => mem_index_decisions) w o
  · rw [h.counterpartyAmount, h'.counterpartyAmount]
    exact hsame _ (fun _ => mem_index_decisions) w o
  · rw [h.ids, h'.ids]
    exact hsame _ (fun _ => id) w o
  · rw [hlate]
    exact @events_congr ⟨s, e, t⟩ ⟨s', e, t⟩ rfl _ hknown w o
  · rw [h.edges, h'.edges]

end FeatureContext

/-! ## Rows -/

namespace CausalFeatureState

variable {F : Type} [FeatureMath F] {catalog : FeatureCatalog} {s s' : CausalFeatureState} {es : List ObservedEvent}

/-- every feature of the catalog has a method -/
def Executable (F : Type) [FeatureMath F] (catalog : FeatureCatalog) : Prop :=
  ∀ d ∈ catalog.features, d.name ∈ (FeatureContext.methods (F := F)).map Prod.fst

theorem derive_alike {c c' : FeatureContext} (h : FeatureContext.Alike c c') (d : FeatureDefinition) :
    derive (F := F) c' d = derive c d := by
  rw [derive, derive]
  cases hmethod : Assoc.get? d.name (FeatureContext.methods (F := F)) with
  | none => rfl
  | some method =>
    have hsame := FeatureContext.methods_alike (F := F) h _ (Assoc.mem_of_get? hmethod)
    dsimp only at hsame ⊢
    rw [hsame]

theorem derive_sources {P : String → Prop} {c : FeatureContext} (h : FeatureContext.Reads P c) {d : FeatureDefinition}
    {x : Sourced F} (hx : derive c d = .ok x) : x.Within P := by
  rw [derive] at hx
  cases hmethod : Assoc.get? d.name (FeatureContext.methods (F := F)) with
  | none =>
    rw [hmethod] at hx
    cases hx
  | some method =>
    rw [hmethod] at hx
    have hwithin := FeatureContext.methods_sources (F := F) h _ (Assoc.mem_of_get? hmethod)
    dsimp only at hx hwithin
    split_ifs at hx <;> cases hx <;> exact hwithin

variable {e : ObservedEvent} {row : FeatureVector F} {t : Time}

theorem compute_row (h : compute catalog s e t = .ok row) : row.eventId = e.eventId ∧ row.decisionAt = t := by
  obtain ⟨_, -, hrest⟩ := except_bind_eq_ok.1 h
  obtain ⟨_, -, hrow⟩ := except_bind_eq_ok.1 hrest
  rw [except_pure_eq_ok] at hrow
  subst hrow
  exact ⟨rfl, rfl⟩

/-- **The sources of a row** are admitted or late, and available before its decision. -/
theorem compute_sources (h : Recorded s es) (hkeyed : Keyed s.known) (hrow : compute catalog s e t = .ok row) :
    ∀ id ∈ row.sourceEventIds, (id ∈ es.map ObservedEvent.eventId ∨ id ∈ s.lateEventIds) ∧ ∀ x, s.known.get? id = some x → x.availableAt < t := by
  obtain ⟨derived, hderived, hrest⟩ := except_bind_eq_ok.1 hrow
  obtain ⟨_, hcheck, hrow'⟩ := except_bind_eq_ok.1 hrest
  rw [except_pure_eq_ok] at hrow'
  subst hrow'
  refine fun id hid => ⟨?_, fun x hx => ?_⟩
  · obtain ⟨y, hy, hid⟩ := List.mem_flatMap.1 (mem_sortedSet.1 hid)
    obtain ⟨d, -, hd⟩ := forall₂_mem_right (mapM_eq_ok.1 hderived) hy
    exact derive_sources (FeatureContext.reads_recorded h hkeyed e t) hd id hid
  · have hmem : x.availableAt ∈ ((sortedSet (derived.flatMap Sourced.sources)).filterMap s.known.get?).map
        ObservedEvent.availableAt := List.mem_map_of_mem (List.mem_filterMap.2 ⟨id, hid, hx⟩)
    have hall := check_eq_ok.1 hcheck
    cases hmax : (((sortedSet (derived.flatMap Sourced.sources)).filterMap s.known.get?).map
        ObservedEvent.availableAt).max? with
    | none =>
      rw [List.max?_eq_none_iff] at hmax
      rw [hmax] at hmem
      cases hmem
    | some latest =>
      rw [hmax] at hall
      exact ((List.max?_le_iff hmax).1 (le_refl latest) _ hmem).trans_lt (of_decide_eq_true hall)

theorem derive_ok (hcatalog : Executable F catalog) (c : FeatureContext) {d : FeatureDefinition} (hd : d ∈ catalog.features) :
    ∃ x, derive (F := F) c d = .ok x := by
  cases hmethod : Assoc.get? d.name (FeatureContext.methods (F := F)) with
  | none => exact absurd (hcatalog d hd) (Assoc.get?_eq_none.1 hmethod)
  | some method =>
    rw [derive, hmethod]
    dsimp only
    split_ifs
    all_goals exact ⟨_, rfl⟩

/-- a row is computed when everything it may read was available before its decision -/
theorem compute_ok (hcatalog : Executable F catalog) (h : Recorded s es) (hkeyed : Keyed s.known)
    (hbefore : ∀ id, id ∈ es.map ObservedEvent.eventId ∨ id ∈ s.lateEventIds →
      ∀ x, s.known.get? id = some x → x.availableAt < t) : ∃ row, compute (F := F) catalog s e t = .ok row := by
  have hall : ∀ d ∈ catalog.features, ∃ x, derive (F := F) ⟨s, e, t⟩ d = .ok x ∧ True := by
    intro d hd
    obtain ⟨x, hx⟩ := derive_ok hcatalog ⟨s, e, t⟩ hd
    exact ⟨x, hx, trivial⟩
  obtain ⟨derived, hderived, -⟩ := mapM_exists_ok hall
  have hchecked : ((((sortedSet (derived.flatMap Sourced.sources)).filterMap s.known.get?).map
      ObservedEvent.availableAt).max?.all (· < t)) = true := by
    cases hmax : (((sortedSet (derived.flatMap Sourced.sources)).filterMap s.known.get?).map
        ObservedEvent.availableAt).max? with
    | none => rfl
    | some latest =>
      obtain ⟨x, hx, rfl⟩ := List.mem_map.1 (List.max?_mem hmax)
      obtain ⟨id, hid, hget⟩ := List.mem_filterMap.1 hx
      obtain ⟨y, hy, hid⟩ := List.mem_flatMap.1 (mem_sortedSet.1 hid)
      obtain ⟨d, -, hd⟩ := forall₂_mem_right (mapM_eq_ok.1 hderived) hy
      exact decide_eq_true (hbefore id (derive_sources (FeatureContext.reads_recorded h hkeyed e t) hd id hid) x hget)
  exact ⟨_, except_bind_eq_ok.2 ⟨derived, hderived, except_bind_eq_ok.2 ⟨(), check_eq_ok.2 hchecked, rfl⟩⟩⟩

/-- the catalog has the feature that reads all that is admitted and all that is late -/
def Monitored (catalog : FeatureCatalog) : Prop := "dq_degraded_state" ∈ catalog.features.map FeatureDefinition.name

/-- a row with that feature lists every admitted or late event of no later time -/
theorem compute_lists (hmonitored : Monitored catalog) {x : ObservedEvent} {id : String}
    (hrow : compute catalog s e t = .ok row) (hid : id ∈ s.admittedIds ∨ id ∈ s.lateEventIds)
    (hx : s.known.get? id = some x) (hkey : x.eventId = id) (htime : x.eventTime ≤ e.eventTime) :
    id ∈ row.sourceEventIds := by
  obtain ⟨derived, hderived, hrest⟩ := except_bind_eq_ok.1 hrow
  obtain ⟨_, -, hrow'⟩ := except_bind_eq_ok.1 hrest
  rw [except_pure_eq_ok] at hrow'
  subst hrow'
  obtain ⟨d, hd, hname⟩ := List.mem_map.1 hmonitored
  obtain ⟨y, hy, hvalue⟩ := forall₂_mem_left (mapM_eq_ok.1 hderived) hd
  have hselected : ∀ ids, id ∈ ids → id ∈ (FeatureContext.events ⟨s, e, t⟩ ids none none).sources := by
    intro ids hmem
    refine List.mem_map.2 ⟨x, List.mem_filter.2 ⟨List.mem_filterMap.2 ⟨id, hmem, hx⟩, ?_⟩, hkey⟩
    simpa using htime
  have hsources : y.sources = (FeatureContext.dqDegradedState (F := F) ⟨s, e, t⟩).sources := by
    rw [derive, hname] at hvalue
    have hmethod : Assoc.get? "dq_degraded_state" (FeatureContext.methods (F := F)) = some FeatureContext.dqDegradedState :=
      rfl
    rw [hmethod] at hvalue
    dsimp only at hvalue
    split_ifs at hvalue <;> cases hvalue <;> rfl
  refine mem_sortedSet.2 (List.mem_flatMap.2 ⟨y, hy, ?_⟩)
  rw [hsources]
  rcases hid with hid | hid
  · exact List.mem_append_left _ (hselected _ hid)
  · exact List.mem_append_right _ (hselected _ hid)

/-- **A row is a function of the recorded history and of what is late.** -/
theorem compute_congr (h : Recorded s es) (h' : Recorded s' es) (hkeyed : Keyed s.known)
    (hlate : s'.lateEventIds = s.lateEventIds) (hknown : ∀ id ∈ s.lateEventIds, s'.known.get? id = s.known.get? id)
    (e : ObservedEvent) (t : Time) : compute (F := F) catalog s' e t = compute catalog s e t := by
  have halike := FeatureContext.alike_recorded h h' hlate hknown e t
  have hderive : catalog.features.mapM (derive (F := F) ⟨s', e, t⟩) = catalog.features.mapM (derive ⟨s, e, t⟩) :=
    mapM_congr_mem fun d _ => derive_alike halike d
  rw [compute, compute, hderive]
  cases hderived : catalog.features.mapM (derive (F := F) ⟨s, e, t⟩) with
  | error error => rfl
  | ok derived =>
    have hsources : ∀ id ∈ sortedSet (derived.flatMap Sourced.sources), s'.known.get? id = s.known.get? id := by
      intro id hid
      obtain ⟨y, hy, hid⟩ := List.mem_flatMap.1 (mem_sortedSet.1 hid)
      obtain ⟨d, -, hd⟩ := forall₂_mem_right (mapM_eq_ok.1 hderived) hy
      rcases derive_sources (FeatureContext.reads_recorded h hkeyed e t) hd id hid with hes | hes
      · obtain ⟨x, hx, rfl⟩ := List.mem_map.1 hes
        rw [h'.known x hx, h.known x hx]
      · exact hknown id hes
    rw [except_ok_bind, except_ok_bind]
    dsimp only
    rw [List.filterMap_congr hsources]

end CausalFeatureState

end Apar
