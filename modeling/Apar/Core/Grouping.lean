/-
Rows grouped by a key: Python's `defaultdict(list)` filled by appending. A library: nothing here is about payments.

- `get?_totalBy`: a running total per key is the fold over the rows of that key.
- `sum_groups`: a total over the rows is the sum of the totals of their groups.
- `perm_groups`: the groups of known keys partition the rows.
- `foldlM_groups`: a fold that may fail and touches the key of its row only is the fold over the rows of each key.
- `sum_items_congr`: two dictionaries with the same value under each key have the same total.
-/
import Apar.Core.Dict
import Apar.Core.Exec
import Apar.Core.Sorting

namespace Apar

namespace Grouping

variable {α κ : Type} [DecidableEq κ]

/-- `groups[key(x)].append(x)` for each row -/
def groupBy (key : α → κ) (xs : List α) : Dict κ (List α) :=
  xs.foldl (fun d x => d.set (key x) (d.getD (key x) [] ++ [x])) ∅

/-- the rows of one key -/
def ofKey (key : α → κ) (xs : List α) (k : κ) : List α := xs.filter fun x => key x = k

theorem mem_ofKey {key : α → κ} {xs : List α} {k : κ} {x : α} : x ∈ ofKey key xs k ↔ x ∈ xs ∧ key x = k := by
  simp [ofKey]

theorem ofKey_append (key : α → κ) (xs ys : List α) (k : κ) : ofKey key (xs ++ ys) k = ofKey key xs k ++ ofKey key ys k :=
  List.filter_append _ _

theorem ofKey_eq_nil {key : α → κ} {xs : List α} {k : κ} (h : k ∉ xs.map key) : ofKey key xs k = [] := by
  rw [ofKey, List.filter_eq_nil_iff]
  intro x hx hkey
  exact h (of_decide_eq_true hkey ▸ List.mem_map_of_mem hx)

theorem groupBy_snoc (key : α → κ) (xs : List α) (x : α) :
    groupBy key (xs ++ [x]) = (groupBy key xs).set (key x) ((groupBy key xs).getD (key x) [] ++ [x]) := by
  simp [groupBy]

/-- a key is grouped when a row has it, and its group is the rows that have it -/
theorem get?_groupBy (key : α → κ) (xs : List α) (k : κ) :
    (groupBy key xs).get? k = if k ∈ xs.map key then some (ofKey key xs k) else none := by
  induction xs using List.reverseRecOn with
  | nil => rfl
  | append_singleton xs x ih =>
    rw [groupBy_snoc, Dict.get?_set]
    have hrow : ofKey key [x] (key x) = [x] := by simp [ofKey]
    by_cases hk : k = key x
    · subst hk
      rw [if_pos rfl, if_pos (by simp), ofKey_append, hrow, Dict.getD, ih]
      by_cases hmem : key x ∈ xs.map key
      · rw [if_pos hmem, Option.getD_some]
      · rw [if_neg hmem, ofKey_eq_nil hmem, Option.getD_none]
    · have hother : ofKey key [x] k = [] := by simp [ofKey, Ne.symm hk]
      have hiff : k ∈ (xs ++ [x]).map key ↔ k ∈ xs.map key := by simp [hk]
      rw [if_neg hk, ih, ofKey_append, hother, List.append_nil]
      simp only [hiff]

/-! ## Running totals -/

variable {V : Type}

/-- `totals[key(x)] = op(totals[key(x)], x)` for each row, of a `defaultdict` with that default -/
def totalBy (key : α → κ) (op : V → α → V) (zero : V) (xs : List α) : Dict κ V :=
  xs.foldl (fun d x => d.set (key x) (op (d.getD (key x) zero) x)) ∅

/-- a running total is the fold over the rows of its key -/
theorem get?_totalBy (key : α → κ) (op : V → α → V) (zero : V) (xs : List α) (k : κ) :
    (totalBy key op zero xs).get? k = if k ∈ xs.map key then some ((ofKey key xs k).foldl op zero) else none := by
  induction xs using List.reverseRecOn with
  | nil => rfl
  | append_singleton xs x ih =>
    have hsnoc : totalBy key op zero (xs ++ [x]) =
        (totalBy key op zero xs).set (key x) (op ((totalBy key op zero xs).getD (key x) zero) x) := by
      simp [totalBy]
    rw [hsnoc, Dict.get?_set]
    have hrow : ofKey key [x] (key x) = [x] := by simp [ofKey]
    by_cases hk : k = key x
    · subst hk
      rw [if_pos rfl, if_pos (by simp), ofKey_append, hrow, List.foldl_append, Dict.getD, ih]
      by_cases hmem : key x ∈ xs.map key
      · rw [if_pos hmem, Option.getD_some]
        rfl
      · rw [if_neg hmem, ofKey_eq_nil hmem]
        rfl
    · have hother : ofKey key [x] k = [] := by simp [ofKey, Ne.symm hk]
      have hiff : k ∈ (xs ++ [x]).map key ↔ k ∈ xs.map key := by simp [hk]
      rw [if_neg hk, ih, ofKey_append, hother, List.append_nil]
      simp only [hiff]

/-- **A fold that may fail, by key.** When the fold over the rows of each key succeeds, so does the whole. -/
theorem foldlM_groups {ε : Type} (key : α → κ) {zero : V} {f : V → α → Except ε V}
    {step : Dict κ V → α → Except ε (Dict κ V)} {xs : List α}
    (hstep : ∀ d, ∀ x ∈ xs, ∀ v, f (d.getD (key x) zero) x = .ok v →
      ∃ d', step d x = .ok d' ∧ ∀ k, d'.getD k zero = if k = key x then v else d.getD k zero)
    (h : ∀ k, ∃ v, (ofKey key xs k).foldlM f zero = .ok v) :
    ∃ d, xs.foldlM step ∅ = .ok d ∧ ∀ k, (ofKey key xs k).foldlM f zero = .ok (d.getD k zero) := by
  induction xs using List.reverseRecOn with
  | nil => exact ⟨∅, rfl, fun _ => rfl⟩
  | append_singleton xs x ih =>
    have hsnoc : ∀ k, ofKey key (xs ++ [x]) k = ofKey key xs k ++ if key x = k then [x] else [] := by
      intro k
      rw [ofKey_append]
      congr 1
      unfold ofKey
      split_ifs with hk <;> simp [hk]
    simp only [hsnoc, List.foldlM_append] at h ⊢
    obtain ⟨d, hd, hkeys⟩ := ih (fun d y hy => hstep d y (by simp [hy])) fun k => by
      obtain ⟨v, hv⟩ := h k
      obtain ⟨w, hw, -⟩ := Exec.except_bind_eq_ok.1 hv
      exact ⟨w, hw⟩
    obtain ⟨v, hv⟩ := h (key x)
    rw [hkeys, if_pos rfl] at hv
    change List.foldlM f (d.getD (key x) zero) [x] = .ok v at hv
    obtain ⟨w, hw, hwv⟩ := Exec.except_bind_eq_ok.1 hv
    cases hwv
    obtain ⟨d', hd', hget⟩ := hstep d x (by simp) v hw
    refine ⟨d', ?_, fun k => ?_⟩
    · rw [hd]
      change List.foldlM step d [x] = .ok d'
      rw [List.foldlM_cons, hd']
      rfl
    · rw [hkeys, hget]
      by_cases hk : key x = k
      · subst hk
        rw [if_pos rfl, if_pos rfl]
        change List.foldlM f _ [x] = .ok v
        rw [List.foldlM_cons, hw]
        rfl
      · rw [if_neg hk, if_neg (Ne.symm hk)]
        rfl

/-! ## Totals -/

variable {M : Type} [AddCommMonoid M]

theorem sum_items (d : Dict κ V) (f : κ × V → M) {ks : Finset κ} (h : ∀ k ∈ d.keys, k ∈ ks) :
    (d.items.map f).sum = ∑ k ∈ ks, ((d.get? k).map fun v => f (k, v)).getD 0 := by
  have hsub : d.keys.toFinset ⊆ ks := fun k hk => h k (List.mem_toFinset.1 hk)
  have hout : ∀ k ∈ ks, k ∉ d.keys.toFinset → ((d.get? k).map fun v => f (k, v)).getD 0 = 0 := by
    intro k _ hk
    rw [List.mem_toFinset, ← Dict.get?_eq_none] at hk
    rw [hk]
    rfl
  have hnodup : d.keys.Nodup := d.nodup
  rw [← Finset.sum_subset hsub hout, List.sum_toFinset _ hnodup, Dict.keys, List.map_map]
  congr 1
  refine List.map_congr_left fun p hp => ?_
  have hget : d.get? p.1 = some p.2 := Dict.get?_eq_some.2 hp
  simp [hget]

/-- **Totals agree key by key.** -/
theorem sum_items_congr {W : Type} {d : Dict κ V} {d' : Dict κ W} {f : κ × V → M} {g : κ × W → M}
    (h : ∀ k, ((d.get? k).map fun v => f (k, v)).getD 0 = ((d'.get? k).map fun w => g (k, w)).getD 0) :
    (d.items.map f).sum = (d'.items.map g).sum := by
  have hleft : ∀ k ∈ d.keys, k ∈ d.keys.toFinset ∪ d'.keys.toFinset := fun k hk => by simp [hk]
  have hright : ∀ k ∈ d'.keys, k ∈ d.keys.toFinset ∪ d'.keys.toFinset := fun k hk => by simp [hk]
  rw [sum_items d f hleft, sum_items d' g hright]
  exact Finset.sum_congr rfl fun k _ => h k

theorem sum_ite_of_mem {ks : List κ} (hn : ks.Nodup) {k : κ} (h : k ∈ ks) (a : M) :
    (ks.map fun j => if k = j then a else 0).sum = a := by
  induction ks with
  | nil => cases h
  | cons j ks ih =>
    rw [List.nodup_cons] at hn
    rw [List.map_cons, List.sum_cons]
    rcases List.mem_cons.1 h with rfl | h
    · have hzero : (ks.map fun j => if k = j then a else 0).sum = 0 := by
        apply List.sum_eq_zero
        intro x hx
        obtain ⟨j, hj, rfl⟩ := List.mem_map.1 hx
        have hne : k ≠ j := fun hkj => hn.1 (hkj ▸ hj)
        exact if_neg hne
      rw [if_pos rfl, hzero, add_zero]
    · have hne : k ≠ j := fun hkj => hn.1 (hkj ▸ h)
      rw [if_neg hne, zero_add, ih hn.2 h]

/-- **A total is the sum of the totals of the groups.** -/
theorem sum_groups (key : α → κ) {ks : List κ} (hn : ks.Nodup) (f : α → M) {xs : List α} (h : ∀ x ∈ xs, key x ∈ ks) :
    (ks.map fun k => ((ofKey key xs k).map f).sum).sum = (xs.map f).sum := by
  induction xs with
  | nil => simp [ofKey]
  | cons x xs ih =>
    have hcons : ∀ k, ((ofKey key (x :: xs) k).map f).sum = (if key x = k then f x else 0) + ((ofKey key xs k).map f).sum := by
      intro k
      unfold ofKey
      by_cases hk : key x = k
      · rw [List.filter_cons_of_pos (by simp [hk]), List.map_cons, List.sum_cons, if_pos hk]
      · rw [List.filter_cons_of_neg (by simp [hk]), if_neg hk, zero_add]
    simp only [hcons]
    rw [List.sum_map_add, sum_ite_of_mem hn (h x (by simp)), ih fun y hy => h y (by simp [hy]), List.map_cons,
      List.sum_cons]

theorem sum_singletons (xs : List α) : (xs.map fun x => ({x} : Multiset α)).sum = xs := by
  induction xs with
  | nil => rfl
  | cons x xs ih => rw [List.map_cons, List.sum_cons, ih, Multiset.singleton_add, Multiset.cons_coe]

theorem coe_flatMap {β : Type} (f : β → List α) (ks : List β) :
    ((ks.flatMap f : List α) : Multiset α) = (ks.map fun k => (f k : Multiset α)).sum := by
  induction ks with
  | nil => rfl
  | cons k ks ih => rw [List.flatMap_cons, List.map_cons, List.sum_cons, ← ih, Multiset.coe_add]

/-- **The groups of known keys partition the rows.** -/
theorem perm_groups (key : α → κ) {ks : List κ} (hn : ks.Nodup) {xs : List α} (h : ∀ x ∈ xs, key x ∈ ks) :
    (ks.flatMap (ofKey key xs)).Perm xs := by
  have hsum := sum_groups key hn (fun x => ({x} : Multiset α)) h
  simp only [sum_singletons] at hsum
  exact Multiset.coe_eq_coe.1 ((coe_flatMap _ _).trans hsum)

end Grouping

end Apar
