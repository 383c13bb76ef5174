/-
Breadth-first search of a graph given by its neighbour lists, with a queue and a list of the nodes seen, as Python's
`deque` loop makes it. A library: nothing here is about payments.

The loop is bounded by a number of turns; `search_spec` says how many are enough.

- `search_spec`: on a finite graph the loop ends, and what it has seen is what the start reaches.
-/
import Mathlib.Tactic

namespace Apar

namespace Search

variable {α : Type} [DecidableEq α]

/-- the neighbours not seen yet, each once, in the order they are met -/
def unseen (seen : List α) : List α → List α
  | [] => []
  | y :: ys => if y ∈ seen then unseen seen ys else y :: unseen (y :: seen) ys

/-- `while queue: ...`, at most so many turns of it; `none` when they are not enough -/
def search (graph : α → List α) : ℕ → List α → List α → Option (List α)
  | _, seen, [] => some seen
  | 0, _, _ :: _ => none
  | turns + 1, seen, current :: rest =>
    let met := unseen seen (graph current)
    search graph turns (seen ++ met) (rest ++ met)

theorem mem_unseen {seen ys : List α} {y : α} : y ∈ unseen seen ys ↔ y ∈ ys ∧ y ∉ seen := by
  induction ys generalizing seen with
  | nil => simp [unseen]
  | cons z zs ih =>
    rw [unseen]
    split_ifs with hz
    · rw [ih, List.mem_cons]
      constructor
      · rintro ⟨hy, hnew⟩
        exact ⟨.inr hy, hnew⟩
      · rintro ⟨rfl | hy, hnew⟩
        · exact absurd hz hnew
        · exact ⟨hy, hnew⟩
    · rw [List.mem_cons, ih, List.mem_cons, List.mem_cons]
      constructor
      · rintro (rfl | ⟨hy, hnew⟩)
        · exact ⟨.inl rfl, hz⟩
        · exact ⟨.inr hy, fun h => hnew (.inr h)⟩
      · rintro ⟨rfl | hy, hnew⟩
        · exact .inl rfl
        · by_cases hyz : y = z
          · exact .inl hyz
          · exact .inr ⟨hy, fun h => h.elim hyz hnew⟩

theorem unseen_nodup (seen ys : List α) : (unseen seen ys).Nodup := by
  induction ys generalizing seen with
  | nil => exact List.nodup_nil
  | cons z zs ih =>
    rw [unseen]
    split_ifs with hz
    · exact ih seen
    · refine List.nodup_cons.2 ⟨?_, ih _⟩
      intro hmem
      exact (mem_unseen.1 hmem).2 (by simp)

/-- one step along an edge -/
def Edge (graph : α → List α) (x y : α) : Prop := y ∈ graph x

/-- the nodes seen: those of the queue still have their neighbours to be met -/
structure Explored (graph : α → List α) (nodes seen queue : List α) : Prop where
  nodup : seen.Nodup
  nodes : ∀ x ∈ seen, x ∈ nodes
  queued : ∀ x ∈ queue, x ∈ seen
  closed : ∀ x ∈ seen, x ∉ queue → ∀ y ∈ graph x, y ∈ seen

/-- **Step.** -/
theorem Explored.turn {graph : α → List α} {nodes seen rest : List α} {current : α}
    (hgraph : ∀ x ∈ nodes, ∀ y ∈ graph x, y ∈ nodes) (h : Explored graph nodes seen (current :: rest)) :
    Explored graph nodes (seen ++ unseen seen (graph current)) (rest ++ unseen seen (graph current)) := by
  have hcurrent := h.queued current (by simp)
  refine ⟨?_, ?_, ?_, ?_⟩
  · rw [List.nodup_append]
    refine ⟨h.nodup, unseen_nodup _ _, ?_⟩
    rintro x hx y hy rfl
    exact (mem_unseen.1 hy).2 hx
  · intro x hx
    rcases List.mem_append.1 hx with hx | hx
    · exact h.nodes x hx
    · exact hgraph current (h.nodes _ hcurrent) x (mem_unseen.1 hx).1
  · intro x hx
    rcases List.mem_append.1 hx with hx | hx
    · exact List.mem_append_left _ (h.queued x (by simp [hx]))
    · exact List.mem_append_right _ hx
  · intro x hx hnew y hy
    rw [List.mem_append] at hx hnew ⊢
    push Not at hnew
    have hseen : x ∈ seen := hx.resolve_right hnew.2
    by_cases hxc : x = current
    · by_cases hys : y ∈ seen
      · exact .inl hys
      · exact .inr (mem_unseen.2 ⟨hxc ▸ hy, hys⟩)
    · refine .inl (h.closed x hseen ?_ y hy)
      rw [List.mem_cons, not_or]
      exact ⟨hxc, hnew.1⟩

omit [DecidableEq α] in
/-- with an empty queue nothing that is reached is missing -/
theorem Explored.complete {graph : α → List α} {nodes seen : List α} (h : Explored graph nodes seen []) {s x : α}
    (hs : s ∈ seen) (hreach : Relation.ReflTransGen (Edge graph) s x) : x ∈ seen := by
  induction hreach with
  | refl => exact hs
  | tail _ hedge ih => exact h.closed _ ih (by simp) _ hedge

/-- **Search.** On a finite graph, a turn for each queued node and each node not seen is enough, and the search sees the
nodes it started from and what they reach. -/
theorem search_spec {graph : α → List α} {nodes : List α} (hgraph : ∀ x ∈ nodes, ∀ y ∈ graph x, y ∈ nodes)
    {turns : ℕ} {seen queue : List α} (h : Explored graph nodes seen queue)
    (hturns : queue.length + nodes.length ≤ turns + seen.length) :
    ∃ found, search graph turns seen queue = some found ∧ (∀ x ∈ found, ∃ s ∈ seen, Relation.ReflTransGen (Edge graph) s x) ∧
      ∀ s ∈ seen, ∀ x, Relation.ReflTransGen (Edge graph) s x → x ∈ found := by
  induction turns generalizing seen queue with
  | zero =>
    cases queue with
    | nil =>
      exact ⟨seen, rfl, fun x hx => ⟨x, hx, .refl⟩, fun s hs x hreach => h.complete hs hreach⟩
    | cons current rest =>
      have hle := (h.nodup.subperm h.nodes).length_le
      simp only [List.length_cons] at hturns
      omega
  | succ turns ih =>
    cases queue with
    | nil =>
      exact ⟨seen, rfl, fun x hx => ⟨x, hx, .refl⟩, fun s hs x hreach => h.complete hs hreach⟩
    | cons current rest =>
      have hcurrent := h.queued current (by simp)
      obtain ⟨found, hsearch, hsound, hcomplete⟩ := ih (h.turn hgraph) (by
        simp only [List.length_append, List.length_cons] at hturns ⊢
        omega)
      refine ⟨found, hsearch, fun x hx => ?_, fun s hs x hreach => hcomplete s (by simp [hs]) x hreach⟩
      obtain ⟨s, hs, hreach⟩ := hsound x hx
      rcases List.mem_append.1 hs with hs | hs
      · exact ⟨s, hs, hreach⟩
      · exact ⟨current, hcurrent, .head (mem_unseen.1 hs).1 hreach⟩

end Search

end Apar
