/-
Rooted trees in arrays: the nodes are the numbers below a bound, each with the list of its children. A library: nothing
here is about payments.

`Rooted` asks only what a program can check node by node: a child comes after its parent, and all the children together
are every node but the first, once each. From that:
- `Rooted.existsUnique_parent`: every node but the first has exactly one parent;
- `Rooted.reachable`: every node is reached from the first.
-/
import Mathlib.Tactic
import Mathlib.Data.List.Range

namespace Apar

/-- the numbers below `n` with these children are one tree whose root is zero -/
structure Rooted (n : ℕ) (children : ℕ → List ℕ) : Prop where
  after : ∀ i < n, ∀ c ∈ children i, i < c
  listed : ((List.range n).flatMap children).Perm (List.range' 1 (n - 1))

namespace Rooted

variable {n : ℕ} {children : ℕ → List ℕ}

/-- `c` is a child of the node `i` -/
def Step (n : ℕ) (children : ℕ → List ℕ) (i c : ℕ) : Prop := i < n ∧ c ∈ children i

theorem mem_listed (h : Rooted n children) {c : ℕ} : (∃ i, Step n children i c) ↔ c ≠ 0 ∧ c < n := by
  have hmem : c ∈ (List.range n).flatMap children ↔ c ∈ List.range' 1 (n - 1) := h.listed.mem_iff
  rw [List.mem_flatMap, List.mem_range'_1] at hmem
  simp only [List.mem_range] at hmem
  unfold Step
  rw [hmem]
  omega

/-- two nodes share no child -/
theorem disjoint (h : Rooted n children) {i j : ℕ} (hij : i < j) (hj : j < n) : (children i).Disjoint (children j) := by
  have hnodup : ((List.range n).flatMap children).Nodup := h.listed.nodup_iff.2 List.nodup_range'
  have hpair := List.pairwise_iff_getElem.1 (List.nodup_flatMap.1 hnodup).2 i j (by simp; omega) (by simpa) hij
  simpa [Function.onFun] using hpair

theorem parent_unique (h : Rooted n children) {i j c : ℕ} (hi : Step n children i c) (hj : Step n children j c) :
    i = j := by
  rcases lt_trichotomy i j with hlt | heq | hlt
  · exact absurd hj.2 (h.disjoint hlt hj.1 hi.2)
  · exact heq
  · exact absurd hi.2 (h.disjoint hlt hi.1 hj.2)

theorem existsUnique_parent (h : Rooted n children) {c : ℕ} (hc : c ≠ 0) (hlt : c < n) :
    ∃! i, Step n children i c := by
  obtain ⟨i, hi⟩ := h.mem_listed.2 ⟨hc, hlt⟩
  exact ⟨i, hi, fun j hj => h.parent_unique hj hi⟩

/-- a parent comes before its child, so the way up ends at the first node -/
theorem reachable (h : Rooted n children) (c : ℕ) (hlt : c < n) : Relation.ReflTransGen (Step n children) 0 c := by
  induction c using Nat.strong_induction_on with
  | _ c ih =>
    by_cases hc : c = 0
    · rw [hc]
    · obtain ⟨i, hi⟩ := h.mem_listed.2 ⟨hc, hlt⟩
      exact (ih i (h.after i hi.1 c hi.2) hi.1).tail hi

end Rooted

end Apar
