/-
Two ways to read a sorted list: the last index that satisfies a predicate, by bisection, and counts from the end. A library:
nothing here is about payments.

- `lastTrue_spec`: where the predicate holds up to some index, the bisection finds that index.
- `getD_suffixSums`: a running count from the end is the sum over the rest of the list.
- `sum_counts_drop`: over a strictly sorted list of keys that has every key, that sum counts the rows from a key on.
-/
import Apar.Core.Grouping

namespace Apar

namespace Bisection

/-- the loop of a bisection for the last index that satisfies; the upper bound is kept as its successor -/
def lastTrue (p : ℕ → Bool) (low stop result : ℕ) : ℕ :=
  if low < stop then
    let middle := (low + (stop - 1)) / 2
    if p middle then lastTrue p (middle + 1) stop middle else lastTrue p low middle result
  else result
termination_by stop - low

/-- **The bisection finds the last index that satisfies.** The start satisfies, and what is before an index that does does. -/
theorem lastTrue_spec {p : ℕ → Bool} {start n : ℕ}
    (hdown : ∀ i j, start ≤ i → i ≤ j → j < n → p j = true → p i = true) {low stop result : ℕ} (hstart : start ≤ result)
    (hresult : result < n) (hp : p result = true) (hlow : low ≤ result + 1) (hstartLow : start ≤ low) (hstop : stop ≤ n)
    (hafter : ∀ i, stop ≤ i → i < n → p i = false) :
    (start ≤ lastTrue p low stop result ∧ lastTrue p low stop result < n) ∧
      ∀ i, start ≤ i → i < n → (p i = true ↔ i ≤ lastTrue p low stop result) := by
  induction hn : stop - low using Nat.strong_induction_on generalizing low stop result with
  | _ k ih =>
    rw [lastTrue]
    split_ifs with hlt
    · dsimp only
      generalize hmiddle : (low + (stop - 1)) / 2 = middle
      split_ifs with hpm
      · exact ih _ (by omega) (by omega) (by omega) hpm le_rfl (by omega) hstop hafter rfl
      · refine ih _ (by omega) hstart hresult hp hlow hstartLow (by omega) ?_ rfl
        intro i hi hin
        by_contra hpi
        exact hpm (hdown middle i (by omega) hi hin (by simpa using hpi))
    · refine ⟨⟨hstart, hresult⟩, fun i hi hin => ⟨fun hpi => ?_, fun hle => hdown i result hi hle hresult hp⟩⟩
      by_contra hgt
      rw [hafter i (by omega) hin] at hpi
      cases hpi

/-! ## Counts from the end -/

/-- the running sums of a list, from its end -/
def suffixSums {α : Type} (f : α → ℕ) : List α → List ℕ
  | [] => []
  | x :: xs =>
    let rest := suffixSums f xs
    (rest.headD 0 + f x) :: rest

theorem length_suffixSums {α : Type} (f : α → ℕ) (xs : List α) : (suffixSums f xs).length = xs.length := by
  induction xs with
  | nil => rfl
  | cons x xs ih => rw [suffixSums, List.length_cons, List.length_cons, ih]

theorem headD_suffixSums {α : Type} (f : α → ℕ) (xs : List α) : (suffixSums f xs).headD 0 = (xs.map f).sum := by
  induction xs with
  | nil => rfl
  | cons x xs ih => rw [suffixSums, List.headD_cons, ih, List.map_cons, List.sum_cons, Nat.add_comm]

theorem getD_suffixSums {α : Type} (f : α → ℕ) (xs : List α) (i : ℕ) :
    (suffixSums f xs).getD i 0 = ((xs.drop i).map f).sum := by
  induction xs generalizing i with
  | nil => simp [suffixSums]
  | cons x xs ih =>
    cases i with
    | zero =>
      have := headD_suffixSums f (x :: xs)
      rwa [suffixSums, List.headD_cons] at this
    | succ i => exact ih i

variable {α K : Type} [LinearOrder K]

/-- the rows from a key on, by the keys from there on -/
theorem sum_counts_drop {keys : List K} (hsorted : keys.Pairwise (· < ·)) (key : α → K) {rows : List α}
    (hmem : ∀ r ∈ rows, key r ∈ keys) {i : ℕ} (hi : i < keys.length) :
    ((keys.drop i).map fun k => rows.countP fun r => key r = k).sum = rows.countP fun r => keys[i] ≤ key r := by
  induction rows with
  | nil => simp
  | cons r rows ih =>
    have hrest := ih fun r' hr' => hmem r' (List.mem_cons_of_mem _ hr')
    have hnodup : (keys.drop i).Nodup := (hsorted.imp fun h => h.ne).sublist (List.drop_sublist i keys)
    have hafter : key r ∈ keys.drop i ↔ keys[i] ≤ key r := by
      obtain ⟨j, hj, hkey⟩ := List.mem_iff_getElem.1 (hmem r List.mem_cons_self)
      rw [← hkey]
      constructor
      · intro hdrop
        obtain ⟨k, hk, heq⟩ := List.mem_drop_iff_getElem.1 hdrop
        rw [← heq]
        rcases k.eq_zero_or_pos with rfl | hpos
        · rfl
        · exact (List.pairwise_iff_getElem.1 hsorted i (i + k) hi (by omega) (by omega)).le
      · intro hle
        have hij : i ≤ j := by
          by_contra hlt
          exact absurd (List.pairwise_iff_getElem.1 hsorted j i hj hi (by omega)) (not_lt.2 hle)
        exact List.mem_drop_iff_getElem.2 ⟨j - i, by omega, by congr 1; omega⟩
    simp only [List.countP_cons, decide_eq_true_eq]
    rw [List.sum_map_add, hrest]
    by_cases hle : keys[i] ≤ key r
    · rw [if_pos hle, Grouping.sum_ite_of_mem hnodup (hafter.2 hle)]
    · have hnone : ((keys.drop i).map fun k => if key r = k then 1 else 0).sum = 0 := by
        rw [List.sum_eq_zero_iff]
        intro n hn
        obtain ⟨k, hk, rfl⟩ := List.mem_map.1 hn
        rw [if_neg]
        rintro rfl
        exact hle (hafter.1 hk)
      rw [if_neg hle, hnone]

end Bisection

end Apar
