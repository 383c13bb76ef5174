/-
Connected components of an undirected multigraph given by its edges, as a stack-based search finds them. A library:
nothing here is about payments.

- `explore` is the search: it pops a node, skips it when it was seen, and pushes its unseen neighbours. It terminates
  since every turn sees another key or shortens the stack.
- `mem_explore`: what it returns are the nodes reachable from the stack.
- `mem_adjacency`: the neighbour sets are the edges, read both ways.
- `adjacency_map`, `explore_map`: under other names the search runs alike, and counts of names and of edges are the same
  (`length_dedup_congr`, `undirected_map_iff`).
- `card_edgesWithin`: the edges within some nodes, loops included, are as many as the pairs of nodes only where as many
  pairs have no edge as nodes have a loop; `n` nodes have `n (n - 1) / 2` pairs (`two_mul_card_pairs`).
-/
import Mathlib.Data.Finset.Prod
import Mathlib.Logic.Relation
import Apar.Core.Dict

namespace Apar

variable {V : Type} [DecidableEq V]

namespace Components

/-! ## Neighbours -/

/-- `neighbors[node].add(other)` -/
def addNeighbor (neighbors : Dict V (List V)) (node other : V) : Dict V (List V) :=
  neighbors.set node ((neighbors.getD node []).insert other)

/-- the set of neighbours of every node that an edge names -/
def adjacency (edges : List (V × V)) : Dict V (List V) :=
  edges.foldl (fun neighbors e => addNeighbor (addNeighbor neighbors e.1 e.2) e.2 e.1) ∅

/-- an edge between two nodes, one way or the other -/
def Adjacent (edges : List (V × V)) (a b : V) : Prop := (a, b) ∈ edges ∨ (b, a) ∈ edges

theorem getD_addNeighbor (neighbors : Dict V (List V)) (node other a b : V) :
    b ∈ (addNeighbor neighbors node other).getD a [] ↔ b ∈ neighbors.getD a [] ∨ (a = node ∧ b = other) := by
  rw [addNeighbor, Dict.getD_set]
  by_cases h : a = node
  · rw [if_pos h, List.mem_insert_iff, h]
    simp only [true_and, or_comm]
  · rw [if_neg h]
    simp only [h, false_and, or_false]

theorem keys_addNeighbor (neighbors : Dict V (List V)) (node other a : V) :
    a ∈ (addNeighbor neighbors node other).keys ↔ a ∈ neighbors.keys ∨ a = node := by
  rw [addNeighbor, Dict.keys_set]
  by_cases h : node ∈ neighbors.keys
  · rw [if_pos h]
    refine ⟨.inl, ?_⟩
    rintro (h' | rfl)
    · exact h'
    · exact h
  · rw [if_neg h, List.mem_append, List.mem_singleton]

theorem mem_adjacency {edges : List (V × V)} {a b : V} : b ∈ (adjacency edges).getD a [] ↔ Adjacent edges a b := by
  induction edges using List.reverseRecOn with
  | nil =>
    refine ⟨fun h => absurd h List.not_mem_nil, ?_⟩
    rintro (h | h)
    · exact absurd h List.not_mem_nil
    · exact absurd h List.not_mem_nil
  | append_singleton edges e ih =>
    rw [adjacency, List.foldl_append, List.foldl_cons, List.foldl_nil, getD_addNeighbor, getD_addNeighbor]
    change ((b ∈ (adjacency edges).getD a [] ∨ _) ∨ _) ↔ _
    obtain ⟨x, y⟩ := e
    rw [ih, Adjacent, Adjacent, List.mem_append, List.mem_append, List.mem_singleton, List.mem_singleton, Prod.mk.injEq,
      Prod.mk.injEq]
    tauto

theorem mem_keys_adjacency {edges : List (V × V)} {a : V} :
    a ∈ (adjacency edges).keys ↔ ∃ e ∈ edges, a = e.1 ∨ a = e.2 := by
  induction edges using List.reverseRecOn with
  | nil => exact ⟨fun h => absurd h List.not_mem_nil, fun ⟨_, h, _⟩ => absurd h List.not_mem_nil⟩
  | append_singleton edges e ih =>
    rw [adjacency, List.foldl_append, List.foldl_cons, List.foldl_nil, keys_addNeighbor, keys_addNeighbor]
    change ((a ∈ (adjacency edges).keys ∨ _) ∨ _) ↔ _
    simp only [ih, List.mem_append, List.mem_singleton, or_and_right, exists_or, exists_eq_left, or_assoc]

/-! ## The search -/

variable (neighbors : Dict V (List V))

/-- the turns of `while frontier`; the head of the stack is what `pop` takes -/
def explore (seen frontier : List V) : List V :=
  match frontier with
  | [] => seen
  | node :: rest =>
    if node ∈ seen then explore seen rest
    else explore (node :: seen) ((neighbors.getD node []).filter (· ∉ node :: seen) ++ rest)
termination_by ((neighbors.keys.filter (· ∉ seen)).length, frontier.length)
decreasing_by
  · exact Prod.Lex.right _ (Nat.lt_succ_self _)
  · rename_i hnew
    by_cases hkey : node ∈ neighbors.keys
    · -- another key is seen
      refine Prod.Lex.left _ _ ?_
      have hkeys : neighbors.keys.filter (· ∉ node :: seen) = (neighbors.keys.filter (· ∉ seen)).filter (· ≠ node) := by
        rw [List.filter_filter]
        refine List.filter_congr fun x _ => ?_
        simp only [List.mem_cons, not_or, ne_eq, Bool.decide_and]
      rw [hkeys]
      refine List.length_filter_lt_length_iff_exists.2 ⟨node, ?_, ?_⟩
      · exact List.mem_filter.2 ⟨hkey, decide_eq_true hnew⟩
      · simp
    · -- a node that no edge names has no neighbours
      have hnone : neighbors.get? node = none := Dict.get?_eq_none.2 hkey
      have hkeys : neighbors.keys.filter (· ∉ node :: seen) = neighbors.keys.filter (· ∉ seen) := by
        refine List.filter_congr fun x hx => decide_eq_decide.2 ?_
        have hne : x ≠ node := fun h => hkey (h ▸ hx)
        rw [List.mem_cons, or_iff_right hne]
      rw [hkeys]
      refine Prod.Lex.right _ ?_
      rw [Dict.getD, hnone]
      exact Nat.lt_succ_self _

@[simp] theorem explore_nil (seen : List V) : explore neighbors seen [] = seen := by rw [explore]

variable {seen frontier : List V}

theorem explore_of_mem {node : V} (h : node ∈ seen) (rest : List V) :
    explore neighbors seen (node :: rest) = explore neighbors seen rest := by
  rw [explore, if_pos h]

theorem explore_of_not_mem {node : V} (h : node ∉ seen) (rest : List V) :
    explore neighbors seen (node :: rest) =
      explore neighbors (node :: seen) ((neighbors.getD node []).filter (· ∉ node :: seen) ++ rest) := by
  rw [explore, if_neg h]

/-- one step along an edge -/
def Next (a b : V) : Prop := b ∈ neighbors.getD a []

variable {neighbors}

theorem explore_nodup (h : seen.Nodup) : (explore neighbors seen frontier).Nodup := by
  fun_induction explore neighbors seen frontier with
  | case1 seen => exact h
  | case2 seen node rest hseen ih => exact ih h
  | case3 seen node rest hnew ih => exact ih (List.nodup_cons.2 ⟨hnew, h⟩)

/-- nothing is seen that is not reached -/
theorem explore_reached {v : V} (h : v ∈ explore neighbors seen frontier) :
    v ∈ seen ∨ ∃ s ∈ frontier, Relation.ReflTransGen (Next neighbors) s v := by
  fun_induction explore neighbors seen frontier with
  | case1 seen => exact .inl h
  | case2 seen node rest hseen ih =>
    rcases ih h with h | ⟨s, hs, hreach⟩
    · exact .inl h
    · exact .inr ⟨s, List.mem_cons_of_mem node hs, hreach⟩
  | case3 seen node rest hnew ih =>
    rcases ih h with h | ⟨s, hs, hreach⟩
    · rcases List.mem_cons.1 h with rfl | h
      · exact .inr ⟨v, List.mem_cons_self, .refl⟩
      · exact .inl h
    · rcases List.mem_append.1 hs with hs | hs
      · exact .inr ⟨node, List.mem_cons_self, .head (List.mem_of_mem_filter hs) hreach⟩
      · exact .inr ⟨s, List.mem_cons_of_mem node hs, hreach⟩

/-- when every neighbour of what is seen is seen or on the stack, the search ends with a closed set -/
theorem explore_closed {seen frontier : List V}
    (hclosed : ∀ u ∈ seen, ∀ w, Next neighbors u w → w ∈ seen ∨ w ∈ frontier) :
    seen ⊆ explore neighbors seen frontier ∧ frontier ⊆ explore neighbors seen frontier ∧
      ∀ u ∈ explore neighbors seen frontier, ∀ w, Next neighbors u w → w ∈ explore neighbors seen frontier := by
  fun_induction explore neighbors seen frontier with
  | case1 seen =>
    refine ⟨List.Subset.refl _, List.nil_subset _, fun u hu w hw => ?_⟩
    rcases hclosed u hu w hw with h | h
    · exact h
    · exact absurd h List.not_mem_nil
  | case2 seen node rest hseen ih =>
    obtain ⟨hkept, hrest, hall⟩ := ih fun u hu w hw => by
      rcases hclosed u hu w hw with h | h
      · exact .inl h
      · rcases List.mem_cons.1 h with rfl | h
        · exact .inl hseen
        · exact .inr h
    exact ⟨hkept, List.cons_subset.2 ⟨hkept hseen, hrest⟩, hall⟩
  | case3 seen node rest hnew ih =>
    obtain ⟨hkept, hrest, hall⟩ := ih fun u hu w hw => by
      by_cases hw' : w ∈ node :: seen
      · exact .inl hw'
      · refine .inr (List.mem_append.2 ?_)
        rcases List.mem_cons.1 hu with rfl | hu
        · exact .inl (List.mem_filter.2 ⟨hw, decide_eq_true hw'⟩)
        · rcases hclosed u hu w hw with h | h
          · exact absurd (List.mem_cons_of_mem node h) hw'
          · rcases List.mem_cons.1 h with rfl | h
            · exact absurd List.mem_cons_self hw'
            · exact .inr h
    refine ⟨fun x hx => hkept (List.mem_cons_of_mem node hx), List.cons_subset.2 ⟨hkept List.mem_cons_self, ?_⟩, hall⟩
    exact fun x hx => hrest (List.mem_append_right _ hx)

/-- **The search** returns exactly the nodes reachable from the stack. -/
theorem mem_explore {v : V} :
    v ∈ explore neighbors [] frontier ↔ ∃ s ∈ frontier, Relation.ReflTransGen (Next neighbors) s v := by
  obtain ⟨-, hfrontier, hclosed⟩ := @explore_closed _ _ neighbors [] frontier
    fun u hu => absurd hu List.not_mem_nil
  refine ⟨fun h => (explore_reached h).resolve_left List.not_mem_nil, ?_⟩
  rintro ⟨s, hs, hreach⟩
  induction hreach with
  | refl => exact hfrontier hs
  | tail _ hstep ih => exact hclosed _ ih _ hstep

/-! ## Other names -/

section

variable {W : Type} [DecidableEq W] {f : V → W}

theorem map_insert (hf : Function.Injective f) (l : List V) (a : V) : (l.insert a).map f = (l.map f).insert (f a) := by
  by_cases ha : a ∈ l
  · rw [List.insert_of_mem ha, List.insert_of_mem (List.mem_map_of_mem ha)]
  · have ha' : f a ∉ l.map f := fun h => ha ((List.mem_map_of_injective hf).1 h)
    rw [List.insert_of_not_mem ha, List.insert_of_not_mem ha', List.map_cons]

theorem addNeighbor_map (hf : Function.Injective f) {ns : Dict V (List V)} {ns' : Dict W (List W)}
    (h : ∀ a, ns'.getD (f a) [] = (ns.getD a []).map f) (node other a : V) :
    (addNeighbor ns' (f node) (f other)).getD (f a) [] = ((addNeighbor ns node other).getD a []).map f := by
  rw [addNeighbor, addNeighbor, Dict.getD_set, Dict.getD_set]
  by_cases ha : a = node
  · rw [if_pos ha, if_pos (congrArg f ha), h, map_insert hf]
  · rw [if_neg ha, if_neg fun heq => ha (hf heq), h]

/-- the neighbours under other names -/
theorem adjacency_map (hf : Function.Injective f) (edges : List (V × V)) (a : V) :
    (adjacency (edges.map (Prod.map f f))).getD (f a) [] = ((adjacency edges).getD a []).map f := by
  induction edges using List.reverseRecOn generalizing a with
  | nil => rfl
  | append_singleton edges e ih =>
    rw [List.map_append, List.map_singleton, adjacency, List.foldl_append, adjacency, List.foldl_append]
    exact addNeighbor_map hf (addNeighbor_map hf ih e.1 e.2) e.2 e.1 a

/-- the search under other names -/
theorem explore_map (hf : Function.Injective f) {ns : Dict V (List V)} {ns' : Dict W (List W)}
    (h : ∀ a, ns'.getD (f a) [] = (ns.getD a []).map f) (seen frontier : List V) :
    explore ns' (seen.map f) (frontier.map f) = (explore ns seen frontier).map f := by
  fun_induction explore ns seen frontier with
  | case1 seen => rw [List.map_nil, explore_nil]
  | case2 seen node rest hseen ih =>
    rw [List.map_cons, explore_of_mem _ (List.mem_map_of_mem hseen), ih]
  | case3 seen node rest hnew ih =>
    have hnew' : f node ∉ seen.map f := fun hmem => hnew ((List.mem_map_of_injective hf).1 hmem)
    have hnext : (ns'.getD (f node) []).filter (· ∉ f node :: seen.map f) =
        ((ns.getD node []).filter (· ∉ node :: seen)).map f := by
      rw [h, List.filter_map]
      refine congrArg _ (List.filter_congr fun x _ => decide_eq_decide.2 ?_)
      rw [← List.map_cons, List.mem_map_of_injective hf]
    rw [List.map_cons, explore_of_not_mem _ hnew', hnext, ← List.map_append, ← List.map_cons, ih]

end

/-- as many different values, when the same elements have equal ones -/
theorem length_dedup_congr {A B C : Type} [DecidableEq B] [DecidableEq C] {f : A → B} {g : A → C} {xs : List A}
    (h : ∀ x ∈ xs, ∀ y ∈ xs, f x = f y ↔ g x = g y) : (xs.map f).dedup.length = (xs.map g).dedup.length := by
  induction xs with
  | nil => rfl
  | cons x xs ih =>
    have hrest := ih fun a ha b hb => h a (List.mem_cons_of_mem x ha) b (List.mem_cons_of_mem x hb)
    have hmem : f x ∈ xs.map f ↔ g x ∈ xs.map g := by
      rw [List.mem_map, List.mem_map]
      exact exists_congr fun a => and_congr_right fun ha => h a (List.mem_cons_of_mem x ha) x List.mem_cons_self
    rw [List.map_cons, List.map_cons]
    by_cases hx : f x ∈ xs.map f
    · rw [List.dedup_cons_of_mem hx, List.dedup_cons_of_mem (hmem.1 hx), hrest]
    · rw [List.dedup_cons_of_notMem hx, List.dedup_cons_of_notMem (fun hx' => hx (hmem.2 hx')), List.length_cons,
        List.length_cons, hrest]

/-! ## Counting edges -/

section

variable {V : Type} [LinearOrder V]

/-- an edge without its direction: `(min(a, b), max(a, b))` -/
def undirected (e : V × V) : V × V := (min e.1 e.2, max e.1 e.2)

theorem undirected_of_le {a b : V} (h : a ≤ b) : undirected (a, b) = (a, b) := by
  rw [undirected, min_eq_left h, max_eq_right h]

variable {e e' p : V × V}

theorem undirected_eq_iff : undirected e = undirected e' ↔ e = e' ∨ e = e'.swap := by
  obtain ⟨a, b⟩ := e
  obtain ⟨c, d⟩ := e'
  rw [Prod.swap_prod_mk]
  constructor
  · intro h
    rcases le_total a b with hab | hab
    · rcases le_total c d with hcd | hcd
      · rw [undirected_of_le hab, undirected_of_le hcd] at h
        exact .inl h
      · rw [undirected_of_le hab, undirected, min_eq_right hcd, max_eq_left hcd] at h
        exact .inr h
    · rcases le_total c d with hcd | hcd
      · rw [undirected_of_le hcd, undirected, min_eq_right hab, max_eq_left hab] at h
        exact .inr (congrArg Prod.swap h)
      · rw [undirected, undirected, min_eq_right hab, max_eq_left hab, min_eq_right hcd, max_eq_left hcd] at h
        exact .inl (congrArg Prod.swap h)
  · intro h
    rcases h with h | h
    · rw [h]
    · rw [h, undirected, undirected, min_comm, max_comm]

/-- the same edges are one without directions under other names -/
theorem undirected_map_iff {W : Type} [LinearOrder W] {f : V → W} (hf : Function.Injective f) :
    undirected (Prod.map f f e) = undirected (Prod.map f f e') ↔ undirected e = undirected e' := by
  rw [undirected_eq_iff, undirected_eq_iff]
  refine or_congr (Function.Injective.prodMap hf hf).eq_iff ?_
  have hswap : (Prod.map f f e').swap = Prod.map f f e'.swap := rfl
  rw [hswap]
  exact (Function.Injective.prodMap hf hf).eq_iff

/-- the pairs of different nodes, each once -/
def pairs (nodes : Finset V) : Finset (V × V) := (nodes ×ˢ nodes).filter fun p => p.1 < p.2

theorem mem_pairs {nodes : Finset V} : p ∈ pairs nodes ↔ p.1 ∈ nodes ∧ p.2 ∈ nodes ∧ p.1 < p.2 := by
  rw [pairs, Finset.mem_filter, Finset.mem_product, and_assoc]

/-- `n` nodes have `n (n - 1) / 2` pairs -/
theorem two_mul_card_pairs (nodes : Finset V) : 2 * (pairs nodes).card = nodes.card * (nodes.card - 1) := by
  have hswap : ((pairs nodes).image Prod.swap).card = (pairs nodes).card :=
    Finset.card_image_of_injective _ Prod.swap_injective
  have hsplit : nodes.offDiag = pairs nodes ∪ (pairs nodes).image Prod.swap := by
    ext ⟨a, b⟩
    simp only [Finset.mem_offDiag, Finset.mem_union, mem_pairs, Finset.mem_image, Prod.exists, Prod.swap_prod_mk,
      Prod.mk.injEq]
    constructor
    · rintro ⟨ha, hb, hne⟩
      rcases lt_or_gt_of_ne hne with h | h
      · exact .inl ⟨ha, hb, h⟩
      · exact .inr ⟨b, a, ⟨hb, ha, h⟩, rfl, rfl⟩
    · rintro (⟨ha, hb, h⟩ | ⟨x, y, ⟨hx, hy, h⟩, rfl, rfl⟩)
      · exact ⟨ha, hb, h.ne⟩
      · exact ⟨hy, hx, h.ne'⟩
  have hdisjoint : Disjoint (pairs nodes) ((pairs nodes).image Prod.swap) := by
    rw [Finset.disjoint_left]
    rintro ⟨a, b⟩ h h'
    obtain ⟨⟨x, y⟩, hxy, heq⟩ := Finset.mem_image.1 h'
    rw [Prod.swap_prod_mk, Prod.mk.injEq] at heq
    obtain ⟨rfl, rfl⟩ := heq
    exact lt_asymm (mem_pairs.1 h).2.2 (mem_pairs.1 hxy).2.2
  calc
    2 * (pairs nodes).card = (pairs nodes).card + ((pairs nodes).image Prod.swap).card := by rw [hswap, two_mul]
    _ = nodes.offDiag.card := by rw [hsplit, Finset.card_union_of_disjoint hdisjoint]
    _ = nodes.card * (nodes.card - 1) := by rw [Finset.offDiag_card, Nat.mul_sub_one]

/-- the edges of a graph within a set of nodes, without directions -/
def edgesWithin (edges : List (V × V)) (nodes : Finset V) : Finset (V × V) :=
  ((edges.filter fun e => e.1 ∈ nodes ∧ e.2 ∈ nodes).map undirected).toFinset

/-- the nodes of the set with an edge to themselves -/
def loops (edges : List (V × V)) (nodes : Finset V) : Finset V := nodes.filter fun v => (v, v) ∈ edges

/-- the pairs of the set without an edge -/
def unlinked (edges : List (V × V)) (nodes : Finset V) : Finset (V × V) :=
  (pairs nodes).filter fun p => (p.1, p.2) ∉ edges ∧ (p.2, p.1) ∉ edges

theorem mem_edgesWithin_iff_exists {edges : List (V × V)} {nodes : Finset V} :
    p ∈ edgesWithin edges nodes ↔ ∃ e ∈ edges, (e.1 ∈ nodes ∧ e.2 ∈ nodes) ∧ undirected e = p := by
  rw [edgesWithin, List.mem_toFinset, List.mem_map]
  refine exists_congr fun e => ?_
  rw [List.mem_filter, decide_eq_true_iff, and_assoc]

theorem mem_edgesWithin {edges : List (V × V)} {nodes : Finset V} :
    p ∈ edgesWithin edges nodes ↔ p.1 ∈ nodes ∧ p.2 ∈ nodes ∧ p.1 ≤ p.2 ∧ ((p.1, p.2) ∈ edges ∨ (p.2, p.1) ∈ edges) := by
  obtain ⟨a, b⟩ := p
  rw [mem_edgesWithin_iff_exists]
  constructor
  · rintro ⟨⟨x, y⟩, hmem, ⟨hx, hy⟩, heq⟩
    rcases le_total x y with hxy | hxy
    · rw [undirected_of_le hxy, Prod.mk.injEq] at heq
      obtain ⟨rfl, rfl⟩ := heq
      exact ⟨hx, hy, hxy, .inl hmem⟩
    · rw [undirected, min_eq_right hxy, max_eq_left hxy, Prod.mk.injEq] at heq
      obtain ⟨rfl, rfl⟩ := heq
      exact ⟨hy, hx, hxy, .inr hmem⟩
  · rintro ⟨ha, hb, hle, h | h⟩
    · exact ⟨(a, b), h, ⟨ha, hb⟩, undirected_of_le hle⟩
    · refine ⟨(b, a), h, ⟨hb, ha⟩, ?_⟩
      rw [undirected, min_eq_right hle, max_eq_left hle]

/-- **Edges and pairs**: the edges within a set of nodes, loops included, and the pairs without an edge are the pairs and
the loops. -/
theorem card_edgesWithin (edges : List (V × V)) (nodes : Finset V) :
    (edgesWithin edges nodes).card + (unlinked edges nodes).card = (pairs nodes).card + (loops edges nodes).card := by
  have hloops : ((edgesWithin edges nodes).filter fun p => ¬ p.1 < p.2) = (loops edges nodes).image fun v => (v, v) := by
    ext ⟨a, b⟩
    simp only [Finset.mem_filter, mem_edgesWithin, loops, Finset.mem_image, Prod.mk.injEq, not_lt]
    constructor
    · rintro ⟨⟨ha, hb, hle, h⟩, hge⟩
      obtain rfl := le_antisymm hle hge
      exact ⟨a, ⟨ha, h.elim id id⟩, rfl, rfl⟩
    · rintro ⟨v, ⟨hv, h⟩, rfl, rfl⟩
      exact ⟨⟨hv, hv, le_rfl, .inl h⟩, le_rfl⟩
  have hlinked : ((edgesWithin edges nodes).filter fun p => p.1 < p.2) =
      (pairs nodes).filter fun p => ¬ ((p.1, p.2) ∉ edges ∧ (p.2, p.1) ∉ edges) := by
    ext ⟨a, b⟩
    simp only [Finset.mem_filter, mem_edgesWithin, mem_pairs, not_and_or, not_not]
    constructor
    · rintro ⟨⟨ha, hb, -, h⟩, hlt⟩
      exact ⟨⟨ha, hb, hlt⟩, h⟩
    · rintro ⟨⟨ha, hb, hlt⟩, h⟩
      exact ⟨⟨ha, hb, hlt.le, h⟩, hlt⟩
  have hdiag : ((loops edges nodes).image fun v => (v, v)).card = (loops edges nodes).card :=
    Finset.card_image_of_injective _ fun a b h => (Prod.mk.inj h).1
  have hedges := Finset.card_filter_add_card_filter_not (s := edgesWithin edges nodes) fun p => p.1 < p.2
  have hpairs := Finset.card_filter_add_card_filter_not (s := pairs nodes)
    fun p => (p.1, p.2) ∉ edges ∧ (p.2, p.1) ∉ edges
  rw [hlinked, hloops, hdiag] at hedges
  rw [unlinked]
  omega

theorem card_edgesWithin_le_iff (edges : List (V × V)) (nodes : Finset V) :
    (edgesWithin edges nodes).card ≤ (pairs nodes).card ↔ (loops edges nodes).card ≤ (unlinked edges nodes).card := by
  have := card_edgesWithin edges nodes
  omega

end

end Components

end Apar
