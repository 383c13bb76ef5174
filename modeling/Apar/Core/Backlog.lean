/-
The largest backlog of arrivals and departures, found by a sweep with two pointers. A library: nothing here is about
payments.

Both lists are sorted. The sweep stops at every instant of an arrival, moves both positions past what is there by then, and
keeps the largest difference.

- `advance_le_eq`: a position that is moved past what is not after an instant counts it.
- `sweep_spec`: the invariant, over the instants that are still to come.
- `sweep_isGreatest`: the backlog at the instants of arrival is the largest of all instants.
-/
import Mathlib.Tactic

namespace Apar

namespace Backlog

section Positions

variable {T : Type}

/-- a position is moved on while what is there satisfies -/
def advance (p : T → Bool) (xs : List T) (i : ℕ) : ℕ := i + ((xs.drop i).takeWhile p).length

theorem lt_advance {p : T → Bool} {xs : List T} {i : ℕ} (hi : i < xs.length) (hp : p xs[i] = true) : i < advance p xs i := by
  rw [advance, List.drop_eq_getElem_cons hi, List.takeWhile_cons_of_pos hp, List.length_cons]
  omega

theorem takeWhile_congr_mem {p q : T → Bool} {xs : List T} (h : ∀ x ∈ xs, p x = q x) : xs.takeWhile p = xs.takeWhile q := by
  induction xs with
  | nil => rfl
  | cons x xs ih =>
    have hx := h x List.mem_cons_self
    rw [List.takeWhile_cons, List.takeWhile_cons, hx, ih fun y hy => h y (List.mem_cons_of_mem _ hy)]

end Positions

variable {T : Type} [LinearOrder T]

/-- the sweep, from the largest difference so far and both positions -/
def sweep (arrivals departures : List T) (peak : ℤ) (i j : ℕ) : ℤ :=
  if h : i < arrivals.length then
    let instant := arrivals[i]
    let i' := advance (· = instant) arrivals i
    let j' := advance (· ≤ instant) departures j
    sweep arrivals departures (max peak (i' - j')) i' j'
  else peak
termination_by arrivals.length - i
decreasing_by
  have := lt_advance (p := (· = arrivals[i])) h (by simp)
  omega

/-- how many more have arrived by an instant than have left -/
def backlog (arrivals departures : List T) (t : T) : ℤ := arrivals.countP (· ≤ t) - departures.countP (· ≤ t)

/-! ## Positions -/

variable {xs arrivals departures : List T}

theorem advance_le_eq (hsorted : xs.Pairwise (· ≤ ·)) {i : ℕ} {t : T} (hi : i ≤ xs.countP (· ≤ t)) :
    advance (· ≤ t) xs i = xs.countP (· ≤ t) := by
  unfold advance
  induction xs generalizing i with
  | nil => simpa using hi
  | cons x xs ih =>
    obtain ⟨hx, hsorted⟩ := List.pairwise_cons.1 hsorted
    by_cases hle : x ≤ t
    · rw [List.countP_cons_of_pos (by simpa using hle)] at hi ⊢
      cases i with
      | zero =>
        have hrest := ih hsorted (Nat.zero_le _)
        rw [List.drop_zero] at hrest ⊢
        rw [List.takeWhile_cons_of_pos (by simpa using hle), List.length_cons]
        omega
      | succ i =>
        have hrest := ih hsorted (Nat.le_of_succ_le_succ hi)
        rw [List.drop_succ_cons]
        omega
    · have hnone : (x :: xs).countP (· ≤ t) = 0 := by
        rw [List.countP_eq_zero]
        intro y hy
        rcases List.mem_cons.1 hy with rfl | hy
        · simpa using hle
        · simpa using (not_le.1 hle).trans_le (hx y hy)
      rw [hnone] at hi ⊢
      rw [Nat.le_zero.1 hi, List.drop_zero, List.takeWhile_cons_of_neg (by simpa using hle)]
      rfl

theorem getElem_le_of_mem_drop (hsorted : xs.Pairwise (· ≤ ·)) {i : ℕ} (hi : i < xs.length) {x : T} (hx : x ∈ xs.drop i)
    : xs[i] ≤ x := by
  rw [List.drop_eq_getElem_cons hi] at hx
  rcases List.mem_cons.1 hx with rfl | hx
  · exact le_rfl
  · have hrest := hsorted.sublist (List.drop_sublist i xs)
    rw [List.drop_eq_getElem_cons hi] at hrest
    exact (List.pairwise_cons.1 hrest).1 x hx

/-- the position of an element is less than how many are not after it -/
theorem lt_countP_le (hsorted : xs.Pairwise (· ≤ ·)) {i : ℕ} (hi : i < xs.length) : i < xs.countP (· ≤ xs[i]) := by
  have htake : (xs.take (i + 1)).countP (· ≤ xs[i]) = i + 1 := by
    rw [List.countP_eq_length.2, List.length_take]
    · omega
    · intro x hx
      obtain ⟨j, hj, rfl⟩ := List.mem_take_iff_getElem.1 hx
      rw [decide_eq_true_eq]
      rcases (by omega : j = i ∨ j < i) with rfl | hji
      · exact le_rfl
      · exact List.pairwise_iff_getElem.1 hsorted j i _ hi hji
  have hle := (List.take_sublist (i + 1) xs).countP_le (p := (· ≤ xs[i]))
  omega

/-- and the other way round -/
theorem getElem_le_of_lt_countP (hsorted : xs.Pairwise (· ≤ ·)) {i : ℕ} (hi : i < xs.length) {t : T}
    (hlt : i < xs.countP (· ≤ t)) : xs[i] ≤ t := by
  by_contra hgt
  have hdrop : (xs.drop i).countP (· ≤ t) = 0 := by
    rw [List.countP_eq_zero]
    intro x hx
    simpa using (not_le.1 hgt).trans_le (getElem_le_of_mem_drop hsorted hi hx)
  have htake : (xs.take i).countP (· ≤ t) ≤ i := List.countP_le_length.trans (List.length_take_le _ _)
  rw [← List.take_append_drop i xs, List.countP_append, hdrop] at hlt
  omega

/-- past the equal elements is past what is not after them -/
theorem advance_eq_eq (hsorted : xs.Pairwise (· ≤ ·)) {i : ℕ} (hi : i < xs.length) :
    advance (· = xs[i]) xs i = xs.countP (· ≤ xs[i]) := by
  rw [← advance_le_eq hsorted (lt_countP_le hsorted hi).le, advance, advance, takeWhile_congr_mem fun x hx => ?_]
  have hle := getElem_le_of_mem_drop hsorted hi hx
  by_cases heq : x = xs[i]
  · simp [heq]
  · simpa [heq] using lt_of_le_of_ne hle (Ne.symm heq)

/-! ## The sweep -/

/-- what the sweep finds from two positions on: nothing that is still to come is larger -/
theorem sweep_spec (harrivals : arrivals.Pairwise (· ≤ ·)) (hdepartures : departures.Pairwise (· ≤ ·)) (peak : ℤ)
    (i j : ℕ) (hj : ∀ t ∈ arrivals.drop i, j ≤ departures.countP (· ≤ t)) :
    peak ≤ sweep arrivals departures peak i j ∧
      (∀ t ∈ arrivals.drop i, backlog arrivals departures t ≤ sweep arrivals departures peak i j) ∧
      (sweep arrivals departures peak i j = peak ∨ ∃ t, sweep arrivals departures peak i j = backlog arrivals departures t) := by
  induction hn : arrivals.length - i using Nat.strong_induction_on generalizing peak i j with
  | _ n ih =>
    rw [sweep]
    split_ifs with hi
    · have hmem : arrivals[i] ∈ arrivals.drop i := by
        rw [List.drop_eq_getElem_cons hi]
        exact List.mem_cons_self
      have hi' := advance_eq_eq harrivals hi
      have hj' := advance_le_eq hdepartures (hj _ hmem)
      have hlt := lt_countP_le harrivals hi
      dsimp only
      rw [hi', hj']
      generalize hinstant : arrivals[i] = instant at hmem hlt
      have hpeak : (arrivals.countP (· ≤ instant) : ℤ) - departures.countP (· ≤ instant) = backlog arrivals departures instant := rfl
      -- what is still to come is not before this instant
      have hlater : ∀ t ∈ arrivals.drop (arrivals.countP (· ≤ instant)), departures.countP (· ≤ instant) ≤ departures.countP (· ≤ t) := by
        intro t ht
        have hle : instant ≤ t := by
          rw [← hinstant]
          exact getElem_le_of_mem_drop harrivals hi ((List.drop_sublist_drop_left _ hlt.le).subset ht)
        refine List.countP_mono_left fun x _ hx => ?_
        simp only [decide_eq_true_eq] at hx ⊢
        exact hx.trans hle
      have hbound : arrivals.countP (· ≤ instant) ≤ arrivals.length := List.countP_le_length
      obtain ⟨hge, hall, hattained⟩ := ih _ (by omega) (max peak (backlog arrivals departures instant)) _ _ hlater rfl
      rw [hpeak]
      refine ⟨(le_max_left _ _).trans hge, ?_, ?_⟩
      · intro t ht
        by_cases hgone : t ∈ arrivals.drop (arrivals.countP (· ≤ instant))
        · exact hall t hgone
        · -- it is passed here, so it is this instant
          have heq : t = instant := by
            obtain ⟨k, hk, rfl⟩ := List.mem_drop_iff_getElem.1 ht
            rw [Nat.add_comm] at hk
            have hfirst : i + k < arrivals.countP (· ≤ instant) := by
              by_contra hle
              refine hgone (List.mem_drop_iff_getElem.2 ⟨i + k - arrivals.countP (· ≤ instant), by omega, ?_⟩)
              congr 1
              omega
            refine le_antisymm (getElem_le_of_lt_countP harrivals hk hfirst) ?_
            rw [← hinstant]
            exact getElem_le_of_mem_drop harrivals hi ht
          rw [heq]
          exact (le_max_right _ _).trans hge
      · rcases hattained with h | h
        · rcases max_choice peak (backlog arrivals departures instant) with hmax | hmax
          · rw [h, hmax]
            exact .inl rfl
          · exact .inr ⟨instant, h.trans hmax⟩
        · exact .inr h
    · refine ⟨le_rfl, ?_, .inl rfl⟩
      intro t ht
      rw [List.drop_eq_nil_of_le (not_lt.1 hi)] at ht
      cases ht

/-- between two arrivals nothing is larger -/
theorem exists_backlog_le (departures : List T) (t : T) (ht : 0 < backlog arrivals departures t) :
    ∃ t' ∈ arrivals, backlog arrivals departures t ≤ backlog arrivals departures t' := by
  have hsome : 0 < arrivals.countP (· ≤ t) := by
    unfold backlog at ht
    omega
  obtain ⟨first, hfirst, hle⟩ := List.countP_pos_iff.1 hsome
  -- the last arrival by then
  have hnonempty : (arrivals.toFinset.filter (· ≤ t)).Nonempty :=
    ⟨first, Finset.mem_filter.2 ⟨List.mem_toFinset.2 hfirst, of_decide_eq_true hle⟩⟩
  obtain ⟨t', ht', hlast⟩ := Finset.exists_max_image _ id hnonempty
  obtain ⟨hmem, hbefore⟩ := Finset.mem_filter.1 ht'
  refine ⟨t', List.mem_toFinset.1 hmem, ?_⟩
  have harrived : arrivals.countP (· ≤ t) ≤ arrivals.countP (· ≤ t') := by
    refine List.countP_mono_left fun x hx hxt => ?_
    exact decide_eq_true (hlast x (Finset.mem_filter.2 ⟨List.mem_toFinset.2 hx, of_decide_eq_true hxt⟩))
  have hleft : departures.countP (· ≤ t') ≤ departures.countP (· ≤ t) := by
    refine List.countP_mono_left fun x _ hx => ?_
    exact decide_eq_true ((of_decide_eq_true hx).trans hbefore)
  unfold backlog
  omega

/-- before everything there is nothing -/
theorem exists_backlog_eq_zero [NoMinOrder T] [Nonempty T] (arrivals departures : List T) :
    ∃ t, backlog arrivals departures t = 0 := by
  obtain ⟨bound, hbound⟩ := (List.finite_toSet (arrivals ++ departures)).bddBelow
  obtain ⟨t, ht⟩ := exists_lt bound
  have hnone : ∀ xs : List T, xs ⊆ arrivals ++ departures → xs.countP (· ≤ t) = 0 := by
    intro xs hxs
    rw [List.countP_eq_zero]
    intro x hx
    simpa using ht.trans_le (hbound (hxs hx))
  refine ⟨t, ?_⟩
  rw [backlog, hnone _ (List.subset_append_left _ _), hnone _ (List.subset_append_right _ _)]
  rfl

/-- **The sweep finds the largest backlog**, over all instants. -/
theorem sweep_isGreatest [NoMinOrder T] [Nonempty T] (harrivals : arrivals.Pairwise (· ≤ ·))
    (hdepartures : departures.Pairwise (· ≤ ·)) :
    IsGreatest (Set.range (backlog arrivals departures)) (sweep arrivals departures 0 0 0) := by
  obtain ⟨hge, hall, hattained⟩ := sweep_spec harrivals hdepartures 0 0 0 fun t _ => Nat.zero_le _
  refine ⟨?_, ?_⟩
  · rcases hattained with h | ⟨t, h⟩
    · obtain ⟨t, ht⟩ := exists_backlog_eq_zero arrivals departures
      exact ⟨t, ht.trans h.symm⟩
    · exact ⟨t, h.symm⟩
  · rintro _ ⟨t, rfl⟩
    by_cases ht : 0 < backlog arrivals departures t
    · obtain ⟨t', ht', hle⟩ := exists_backlog_le departures t ht
      exact hle.trans (hall t' ht')
    · exact (not_lt.1 ht).trans hge

end Backlog

end Apar
