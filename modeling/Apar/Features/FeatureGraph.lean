/-
The graph features of a decision (`_component` and `_feature_graph_edge_density` of `features/state.py`), in every state.

The component of a decision is what is connected to its actor or its counterparty by the edges of the last day. Its
density divides the number of its edges by the number of pairs of its nodes. A payment of a party to itself is an edge of
one node and no pair, so the quotient is not a share.

- `mem_component`, `component_edges`: the nodes and the edges of a component.
- `density_unit_iff`: a quotient of counts, as floats compute it, is at most one only when the counts are so ordered, or
  are rounded to the same float.
- `component_density_iff`: the density is a share exactly when there are no more self-payers than pairs without an edge.
-/
import Apar.Core.Doubles
import Apar.Features.CausalProcess

namespace Apar

open Exec

namespace FeatureContext

/-! ## Components -/

/-- two parties with an edge between them -/
def Linked (edges : List GraphEdge) (a b : String) : Prop := Components.Adjacent (edges.map GraphEdge.ends) a b

/-- a party of an edge -/
def Occurs (edges : List GraphEdge) (a : String) : Prop := ∃ e ∈ edges, a = e.actorId ∨ a = e.counterpartyId

/-- a party of the decision that has an edge -/
def Seed (c : FeatureContext) (edges : List GraphEdge) (a : String) : Prop :=
  (a = c.event.actorId ∨ a = c.event.counterpartyId) ∧ Occurs edges a

theorem mem_keys_neighbors {edges : List GraphEdge} {a : String} : a ∈ (neighbors edges).keys ↔ Occurs edges a := by
  rw [neighbors, Components.mem_keys_adjacency]
  simp only [List.mem_map, exists_exists_and_eq_and, GraphEdge.ends, Occurs]

theorem next_neighbors (edges : List GraphEdge) : Components.Next (neighbors edges) = Linked edges := by
  funext a b
  exact propext Components.mem_adjacency

/-- **The component** of a decision is what is connected to one of its parties. -/
theorem mem_component (c : FeatureContext) (edges : List GraphEdge) (v : String) :
    v ∈ (c.component edges).1 ↔ ∃ party, c.Seed edges party ∧ Relation.ReflTransGen (Linked edges) party v := by
  rw [component, Components.mem_explore, next_neighbors]
  refine exists_congr fun party => and_congr_left fun _ => ?_
  rw [List.mem_filter, List.mem_dedup, List.mem_cons, List.mem_singleton, decide_eq_true_eq, mem_keys_neighbors, Seed]

theorem component_nodup (c : FeatureContext) (edges : List GraphEdge) : (c.component edges).1.Nodup :=
  Components.explore_nodup List.nodup_nil

theorem component_eq_nil (c : FeatureContext) {edges : List GraphEdge} (hactor : ¬ Occurs edges c.event.actorId)
    (hcounterparty : ¬ Occurs edges c.event.counterpartyId) : (c.component edges).1 = [] := by
  refine List.eq_nil_iff_forall_not_mem.2 fun v hv => ?_
  obtain ⟨party, ⟨hparty, hoccurs⟩, -⟩ := (c.mem_component edges v).1 hv
  rcases hparty with rfl | rfl
  · exact hactor hoccurs
  · exact hcounterparty hoccurs

/-- the nodes of the component -/
def componentNodes (c : FeatureContext) (edges : List GraphEdge) : Finset String := (c.component edges).1.toFinset

theorem card_componentNodes (c : FeatureContext) (edges : List GraphEdge) :
    (c.componentNodes edges).card = (c.component edges).1.length :=
  List.toFinset_card_of_nodup (c.component_nodup edges)

theorem component_edges (c : FeatureContext) (edges : List GraphEdge) :
    (c.component edges).2.toFinset = Components.edgesWithin (edges.map GraphEdge.ends) (c.componentNodes edges) := by
  ext p
  rw [Components.mem_edgesWithin_iff_exists, List.mem_toFinset, component, List.mem_dedup, List.mem_map]
  simp only [List.mem_filter, Bool.and_eq_true, decide_eq_true_iff, List.mem_map, exists_exists_and_eq_and, componentNodes,
    component, List.mem_toFinset, GraphEdge.ends, and_assoc]

theorem length_component_edges (c : FeatureContext) (edges : List GraphEdge) :
    (c.component edges).2.length =
      (Components.edgesWithin (edges.map GraphEdge.ends) (c.componentNodes edges)).card := by
  have hnodup : (c.component edges).2.Nodup := List.nodup_dedup _
  rw [← component_edges, List.toFinset_card_of_nodup hnodup]

/-! ## Density -/

/-- the arithmetic of binary floats, over functions of `math` and `statistics` -/
@[reducible] def rounded (base : FeatureMath ℚ) : FeatureMath ℚ :=
  { base with
    ofInt := fun n => Binary64.nearest n
    trueDiv := fun a b => Binary64.nearest (a / b)
    toDiv := ⟨Binary64.div⟩
    isZero := fun x => x = 0 }

/-- a quotient of counts that is a share of one -/
theorem density_unit_iff (base : FeatureMath ℚ) (nodes edges pairs : ℕ) (hpairs : 2 * pairs = nodes * (nodes - 1)) :
    Binary64.Unit (@density ℚ (rounded base) nodes edges) ↔
      nodes ≤ 1 ∨ Binary64.nearest edges ≤ Binary64.nearest pairs := by
  have hpossible : ((nodes * (nodes - 1) : ℤ) : ℚ) / ((2 : ℤ) : ℚ) = pairs := by
    rw [div_eq_iff (by norm_num)]
    cases nodes with
    | zero => simpa using hpairs
    | succ n =>
      have : ((n + 1 : ℕ) * ((n + 1 : ℕ) - 1) : ℤ) = 2 * pairs := by
        push_cast
        rw [Nat.add_sub_cancel] at hpairs
        have : (2 * pairs : ℤ) = (n + 1) * n := by exact_mod_cast hpairs
        rw [this]
        ring
      rw [this]
      push_cast
      ring
  have hdensity : @density ℚ (rounded base) nodes edges =
      if Binary64.nearest pairs = 0 then Binary64.nearest 0
      else Binary64.div (Binary64.nearest edges) (Binary64.nearest pairs) := by
    show (if decide (Binary64.nearest (((nodes * (nodes - 1) : ℤ) : ℚ) / ((2 : ℤ) : ℚ)) = 0) = true then
      Binary64.nearest ((0 : ℤ) : ℚ) else Binary64.div (Binary64.nearest ((edges : ℤ) : ℚ))
        (Binary64.nearest (((nodes * (nodes - 1) : ℤ) : ℚ) / ((2 : ℤ) : ℚ)))) = _
    rw [hpossible, Int.cast_natCast, Int.cast_zero]
    simp only [decide_eq_true_iff]
  rw [hdensity]
  by_cases hfew : nodes ≤ 1
  · have hnone : pairs = 0 := by
      have : nodes * (nodes - 1) = 0 := by rw [Nat.sub_eq_zero_of_le hfew, mul_zero]
      omega
    rw [hnone, Nat.cast_zero, Binary64.nearest_zero, if_pos rfl]
    exact iff_of_true ⟨le_rfl, zero_le_one⟩ (.inl hfew)
  · have hsome : 1 ≤ pairs := by
      have : 1 ≤ nodes * (nodes - 1) := Nat.one_le_iff_ne_zero.2 (Nat.mul_ne_zero (by omega) (by omega))
      omega
    have hone : 1 ≤ Binary64.nearest pairs := Binary64.le_nearest Binary64.nearest_one (by exact_mod_cast hsome)
    have hpos : 0 < Binary64.nearest (pairs : ℚ) := zero_lt_one.trans_le hone
    rw [if_neg hpos.ne', Binary64.Unit, or_iff_right hfew,
      Binary64.div_le_one_iff (Binary64.nearest_nearest _) (Binary64.nearest_nearest _) hpos, and_iff_right_iff_imp]
    intro _
    exact Binary64.nearest_nonneg (div_nonneg (Binary64.nearest_nonneg (Nat.cast_nonneg _)) hpos.le)

/-- **Components and their density.** The component of a decision is exactly what the last day's edges connect to its actor
or its counterparty, with the edges among it; and its density is a share exactly when it has at most one node, or no more
nodes that paid themselves than pairs without an edge, or so many edges that the difference is lost in rounding. -/
theorem component_density_iff (base : FeatureMath ℚ) (c : FeatureContext) :
    let edges := (c.graphEdges day).value
    let nodes := c.componentNodes edges
    let ends := edges.map GraphEdge.ends
    (∀ v, v ∈ (c.component edges).1 ↔ ∃ party, c.Seed edges party ∧ Relation.ReflTransGen (Linked edges) party v) ∧
    (¬ Occurs edges c.event.actorId → ¬ Occurs edges c.event.counterpartyId → (c.component edges).1 = []) ∧
    ((c.component edges).1.Nodup ∧ (c.component edges).2.Nodup ∧
      (c.component edges).2.toFinset = Components.edgesWithin ends nodes) ∧
    (Binary64.Unit (@graphEdgeDensity ℚ (rounded base) c).value ↔
      nodes.card ≤ 1 ∨ (Components.loops ends nodes).card ≤ (Components.unlinked ends nodes).card ∨
        Binary64.nearest (((Components.pairs nodes).card + (Components.loops ends nodes).card -
          (Components.unlinked ends nodes).card : ℕ) : ℚ) = Binary64.nearest (Components.pairs nodes).card) := by
  intro edges nodes ends
  refine ⟨c.mem_component edges, fun hactor hcounterparty => c.component_eq_nil hactor hcounterparty,
    ⟨c.component_nodup edges, List.nodup_dedup _, c.component_edges edges⟩, ?_⟩
  have hnodes : (c.component edges).1.length = nodes.card := (c.card_componentNodes edges).symm
  have hedges := Components.card_edgesWithin ends nodes
  have hcount : (Components.edgesWithin ends nodes).card =
      (Components.pairs nodes).card + (Components.loops ends nodes).card - (Components.unlinked ends nodes).card := by
    omega
  have hpairs : 2 * (Components.pairs nodes).card = nodes.card * (nodes.card - 1) := Components.two_mul_card_pairs nodes
  show Binary64.Unit (@density ℚ (rounded base) (c.component edges).1.length (c.component edges).2.length) ↔ _
  rw [hnodes, c.length_component_edges edges, density_unit_iff base _ _ _ hpairs]
  refine or_congr_right ?_
  change Binary64.nearest ((Components.edgesWithin ends nodes).card : ℚ) ≤ _ ↔ _
  rw [← Components.card_edgesWithin_le_iff ends nodes, ← hcount]
  constructor
  · intro h
    by_cases hle : (Components.edgesWithin ends nodes).card ≤ (Components.pairs nodes).card
    · exact .inl hle
    · refine .inr (le_antisymm h (Binary64.nearest_le_nearest ?_))
      exact_mod_cast (not_le.1 hle).le
  · rintro (h | h)
    · exact Binary64.nearest_le_nearest (by exact_mod_cast h)
    · exact h.le

/-! ## A party that pays itself -/

namespace Sample

/-- exact arithmetic -/
@[reducible] def exactMath : FeatureMath ℚ :=
  { PyFloat.rational with
    log1p := id
    abs := abs
    pstdev := fun _ => 0
    fmean := fun _ => 0
    isZero := fun x => x = 0 }

/-- a transfer of `"a"` that is known and decided as it happens -/
def pay (id counterpartyId : String) (t : Time) : ObservedEvent where
  eventId := id
  paymentId := id
  rail := .a2a
  eventType := .transferInitiated
  amount := ⟨100, 0⟩
  currency := "USD"
  eventTime := t
  availableAt := t
  decisionAt := some t
  actorId := "a"
  counterpartyId := counterpartyId
  optionalRefs := ∅
  integrityStatus := .notApplicable
  integrityReason := none
  isDecisionPoint := true

def catalog : FeatureCatalog := ⟨[⟨"graph_edge_density", .zero⟩], "catalog", by decide⟩

/-- a payment of `"a"` to itself and one to `"b"` -/
def first : EStateM.Result FeatureStateError CausalFeatureState (List (FeatureVector ℚ)) :=
  @CausalFeatureState.process ℚ (rounded exactMath) catalog [pay "1" "a" 1, pay "2" "b" 2] .empty

/-- the state after them -/
def after : CausalFeatureState :=
  match first with
  | .ok _ s => s
  | .error _ s => s

/-- the next payment to `"b"` -/
def next : FeatureContext := ⟨after.admitSourcesStrictlyBefore 3 ["3"], pay "3" "b" 3, 3⟩

theorem next_edges : (next.graphEdges day).value = [(pay "1" "a" 1).edge, (pay "2" "b" 2).edge] := by decide +kernel

theorem next_component : next.component (next.graphEdges day).value = (["b", "a"], [("a", "a"), ("a", "b")]) := by
  rw [next_edges]
  have hneighbors : (neighbors [(pay "1" "a" 1).edge, (pay "2" "b" 2).edge]) = Components.adjacency [("a", "a"), ("a", "b")] :=
    rfl
  have hseeds : (["a", "b"].dedup.filter (· ∈ (Components.adjacency [("a", "a"), ("a", "b")]).keys)) = ["a", "b"] := by decide
  have hseen : Components.explore (Components.adjacency [("a", "a"), ("a", "b")]) [] ["a", "b"] = ["b", "a"] := by
    rw [Components.explore_of_not_mem _ (by decide)]
    change Components.explore _ ["a"] ["b", "b"] = _
    rw [Components.explore_of_not_mem _ (by decide)]
    change Components.explore _ ["b", "a"] ["b"] = _
    rw [Components.explore_of_mem _ (by decide), Components.explore_nil]
  have hactor : next.event.actorId = "a" := rfl
  have hcounterparty : next.event.counterpartyId = "b" := rfl
  rw [component, hneighbors, hactor, hcounterparty]
  show (Components.explore _ [] (["a", "b"].dedup.filter _), _) = _
  rw [hseeds, hseen]
  decide +kernel

theorem after_reachable : @CausalFeatureState.Reachable ℚ (rounded exactMath) catalog after := by
  have hok : (match first with | .ok _ _ => true | .error _ _ => false) = true := by decide +kernel
  have hrun : ∃ rows, first = .ok rows after := by
    cases hfirst : first with
    | ok rows s => exact ⟨rows, by rw [after, hfirst]⟩
    | error e s =>
      rw [hfirst] at hok
      cases hok
  obtain ⟨rows, hrun⟩ := hrun
  have hempty := @CausalFeatureState.Reachable.empty ℚ (rounded exactMath) catalog
  exact @CausalFeatureState.Reachable.process ℚ (rounded exactMath) catalog _ _ _ rows hempty hrun

end Sample

open Sample in
/-- a reachable state and a decision of density two -/
theorem component_density_exceeds : @CausalFeatureState.Reachable ℚ (rounded exactMath) catalog after ∧
    next.state = after.admitSourcesStrictlyBefore 3 [next.event.eventId] ∧
    (@graphEdgeDensity ℚ (rounded exactMath) next).value = 2 ∧
    ¬ Binary64.Unit (@graphEdgeDensity ℚ (rounded exactMath) next).value := by
  have hvalue : (@graphEdgeDensity ℚ (rounded exactMath) next).value = 2 := by
    show @density ℚ (rounded exactMath) (next.component (next.graphEdges day).value).1.length
      (next.component (next.graphEdges day).value).2.length = 2
    rw [next_component]
    decide +kernel
  refine ⟨after_reachable, rfl, hvalue, fun h => ?_⟩
  rw [hvalue] at h
  exact absurd h.2 (by norm_num)

end FeatureContext

end Apar
