/-
Bounded sorted pools: a stream keeps the `limit` least elements it has seen. A library: nothing here is about payments.

- `foldl_retain`: a pool that retained every element of a stream with distinct keys holds the least `limit` of them.
- `shortlist_congr`: so it does not depend on the order of the stream.
- `find?_shortlist`: with fewer than `limit` elements taken, the first one left in the pool is the first one left at all.
-/
import Apar.Core.Sorting

namespace Apar

variable {α K : Type} [LinearOrder K] {key : α → K}

/-- `pool.append(x); pool.sort(key=key); del pool[limit:]` -/
def retain (key : α → K) (limit : ℕ) (pool : List α) (x : α) : List α := (sortBy key (pool ++ [x])).take limit

/-- the least `limit` elements, in order -/
def shortlist (key : α → K) (limit : ℕ) (xs : List α) : List α := (sortBy key xs).take limit

variable {limit : ℕ} {xs taken : List α}

theorem shortlist_congr {ys : List α} (hp : xs.Perm ys) (hn : (xs.map key).Nodup) :
    shortlist key limit xs = shortlist key limit ys := by
  rw [shortlist, shortlist, sortBy_congr hp hn]

theorem mem_of_mem_shortlist {x : α} (h : x ∈ shortlist key limit xs) : x ∈ xs :=
  mem_sortBy.1 (List.mem_of_mem_take h)

theorem length_shortlist (limit : ℕ) (xs : List α) : (shortlist key limit xs).length = min limit xs.length := by
  rw [shortlist, List.length_take, (sortBy_perm key xs).length_eq]

/-! ## Retaining a stream -/

/-- what is behind the first `n` elements stays behind them -/
theorem take_orderedInsert (r : α → α → Prop) [DecidableRel r] (x : α) (l : List α) (n : ℕ) :
    ((l.take n).orderedInsert r x).take n = (l.orderedInsert r x).take n := by
  induction l generalizing n with
  | nil => rw [List.take_nil]
  | cons y l ih =>
    cases n with
    | zero => rfl
    | succ n =>
      rw [List.take_succ_cons, List.orderedInsert, List.orderedInsert]
      by_cases hxy : r x y
      · rw [if_pos hxy, if_pos hxy, List.take_succ_cons, List.take_succ_cons]
        cases n with
        | zero => rfl
        | succ n => rw [List.take_succ_cons, List.take_succ_cons, List.take_take, Nat.min_eq_left n.le_succ]
      · rw [if_neg hxy, if_neg hxy, List.take_succ_cons, List.take_succ_cons, ih]

theorem sortBy_concat {x : α} (hn : ((xs ++ [x]).map key).Nodup) :
    sortBy key (xs ++ [x]) = (sortBy key xs).orderedInsert (fun a b => key a ≤ key b) x :=
  sortBy_congr List.perm_append_comm hn

theorem retain_shortlist {x : α} (hn : ((xs ++ [x]).map key).Nodup) :
    retain key limit (shortlist key limit xs) x = shortlist key limit (xs ++ [x]) := by
  have hpool : ((shortlist key limit xs ++ [x]).map key).Nodup := by
    have hperm : ((sortBy key xs ++ [x]).map key).Nodup :=
      (((sortBy_perm key xs).append_right [x]).map key).nodup_iff.2 hn
    exact hperm.sublist (((List.take_sublist _ _).append_right [x]).map key)
  have hsorted : sortBy key (shortlist key limit xs) = shortlist key limit xs :=
    sortBy_of_sorted ((sortBy_sorted key xs).sublist (List.take_sublist _ _))
  calc
    retain key limit (shortlist key limit xs) x
        = (((sortBy key xs).take limit).orderedInsert (fun a b => key a ≤ key b) x).take limit := by
          rw [retain, sortBy_concat hpool, hsorted, shortlist]
    _ = ((sortBy key xs).orderedInsert (fun a b => key a ≤ key b) x).take limit := take_orderedInsert _ _ _ _
    _ = shortlist key limit (xs ++ [x]) := by rw [shortlist, sortBy_concat hn]

/-- **A pool** that retained the elements of a stream with a property holds the least of them. -/
theorem foldl_retain (p : α → Bool) (limit : ℕ) (hn : (xs.map key).Nodup) :
    xs.foldl (fun pool x => if p x then retain key limit pool x else pool) [] = shortlist key limit (xs.filter p) := by
  induction xs using List.reverseRecOn with
  | nil => exact List.take_nil.symm
  | append_singleton xs x ih =>
    have hinit : (xs.map key).Nodup := hn.sublist ((List.sublist_append_left xs [x]).map key)
    rw [List.foldl_append, List.foldl_cons, List.foldl_nil, ih hinit, List.filter_append]
    by_cases hx : p x
    · rw [if_pos hx, List.filter_cons_of_pos hx, List.filter_nil, retain_shortlist]
      exact hn.sublist ((List.filter_sublist.append_right [x]).map key)
    · rw [if_neg hx, List.filter_cons_of_neg hx, List.filter_nil, List.append_nil]

/-! ## Taking from a pool -/

variable [DecidableEq α]

/-- with fewer than `limit` elements taken, the first one left among `limit` is the first one left at all -/
theorem find?_take {l : List α} (hn : l.Nodup) (hlt : taken.length < limit) :
    (l.take limit).find? (· ∉ taken) = l.find? (· ∉ taken) := by
  by_cases hlong : l.length ≤ limit
  · rw [List.take_of_length_le hlong]
  · have hsome : ((l.take limit).find? (· ∉ taken)).isSome := by
      by_contra hnone
      rw [Bool.not_eq_true, Option.isSome_eq_false_iff, Option.isNone_iff_eq_none, List.find?_eq_none] at hnone
      have hsub : l.take limit ⊆ taken := by
        intro x hx
        by_contra hnot
        exact hnone x hx (decide_eq_true hnot)
      have hle := ((hn.sublist (List.take_sublist limit l)).subperm hsub).length_le
      rw [List.length_take] at hle
      omega
    obtain ⟨x, hx⟩ := Option.isSome_iff_exists.1 hsome
    calc
      (l.take limit).find? (· ∉ taken) = ((l.take limit).find? (· ∉ taken)).or ((l.drop limit).find? (· ∉ taken)) := by
        rw [hx, Option.some_or]
      _ = (l.take limit ++ l.drop limit).find? (· ∉ taken) := List.find?_append.symm
      _ = l.find? (· ∉ taken) := by rw [List.take_append_drop]

theorem find?_shortlist (hn : xs.Nodup) (hlt : taken.length < limit) :
    (shortlist key limit xs).find? (· ∉ taken) = (sortBy key xs).find? (· ∉ taken) :=
  find?_take ((sortBy_perm key xs).nodup_iff.2 hn) hlt

omit [DecidableEq α] in
/-- something is found exactly when some element has the property -/
theorem find?_sortBy_isSome {q : α → Bool} : ((sortBy key xs).find? q).isSome ↔ ∃ x ∈ xs, q x = true := by
  simp only [List.find?_isSome, mem_sortBy]

omit [DecidableEq α] in
/-- what is found in a sorted list is the least element with the property -/
theorem find?_sortBy_eq_some (hn : (xs.map key).Nodup) {q : α → Bool} {x : α} :
    (sortBy key xs).find? q = some x ↔ x ∈ xs ∧ q x = true ∧ ∀ y ∈ xs, q y = true → key x ≤ key y := by
  have hleast : ∀ {z}, (sortBy key xs).find? q = some z → z ∈ xs ∧ q z = true ∧ ∀ y ∈ xs, q y = true → key z ≤ key y := by
    intro z hz
    obtain ⟨hq, before, behind, hsplit, hbefore⟩ := List.find?_eq_some_iff_append.1 hz
    have hmem : ∀ y, y ∈ xs ↔ y ∈ before ++ z :: behind := fun y => by rw [← hsplit, mem_sortBy]
    refine ⟨(hmem z).2 (by simp), hq, fun y hy hqy => ?_⟩
    have hsorted := sortBy_sorted key xs
    rw [hsplit, List.pairwise_append, List.pairwise_cons] at hsorted
    rcases List.mem_append.1 ((hmem y).1 hy) with hb | hb
    · have := hbefore y hb
      rw [hqy] at this
      exact absurd this (by decide)
    · rcases List.mem_cons.1 hb with rfl | hb
      · exact le_rfl
      · exact hsorted.2.1.1 y hb
  refine ⟨hleast, fun ⟨hx, hq, hle⟩ => ?_⟩
  obtain ⟨z, hz⟩ := Option.isSome_iff_exists.1 ((find?_sortBy_isSome : ((sortBy key xs).find? q).isSome ↔ _).2 ⟨x, hx, hq⟩)
  obtain ⟨hzmem, hzq, hzle⟩ := hleast hz
  rw [hz, List.inj_on_of_nodup_map hn hzmem hx (le_antisymm (hzle x hx hq) (hle z hzmem hzq))]

end Apar
