/-
Python's `sorted`: the stable sort by a key, and the sorted set. A library: nothing here is about payments.

- `sortBy_congr`: lists with distinct keys that are permutations of each other sort to the same list.
- `filter_sortBy`: a stable sort commutes with filtering.
- `sortedSet_congr`: `tuple(sorted(set(xs)))` depends on the elements only.
-/
import Mathlib.Tactic
import Mathlib.Data.List.Sort
import Mathlib.Data.List.Dedup

namespace Apar

variable {α β K : Type} [LinearOrder K]

/-- `sorted(xs, key=key)` -/
def sortBy (key : α → K) (xs : List α) : List α := xs.insertionSort fun a b => key a ≤ key b

theorem sortBy_perm (key : α → K) (xs : List α) : (sortBy key xs).Perm xs := List.perm_insertionSort _ xs

variable {key : α → K} {xs ys : List α}

@[simp] theorem mem_sortBy {x : α} : x ∈ sortBy key xs ↔ x ∈ xs :=
  (sortBy_perm key xs).mem_iff

theorem sortBy_sorted (key : α → K) (xs : List α) : (sortBy key xs).Pairwise fun a b => key a ≤ key b := by
  have : Std.Total fun a b : α => key a ≤ key b := ⟨fun a b => le_total (key a) (key b)⟩
  have : IsTrans α fun a b => key a ≤ key b := ⟨fun _ _ _ => le_trans⟩
  exact List.pairwise_insertionSort (fun a b : α => key a ≤ key b) xs

theorem sortBy_of_sorted (h : xs.Pairwise fun a b => key a ≤ key b) : sortBy key xs = xs :=
  List.Pairwise.insertionSort_eq h

/-- two sorted permutations of each other with distinct keys are equal -/
theorem eq_of_perm_of_sortedKeys (hp : xs.Perm ys) (hn : (xs.map key).Nodup) (hx : xs.Pairwise fun a b => key a ≤ key b)
    (hy : ys.Pairwise fun a b => key a ≤ key b) : xs = ys := by
  refine List.Perm.eq_of_pairwise ?_ hx hy hp
  intro a b ha hb hab hba
  exact List.inj_on_of_nodup_map hn ha (hp.mem_iff.2 hb) (le_antisymm hab hba)

theorem sortBy_congr (hp : xs.Perm ys) (hn : (xs.map key).Nodup) : sortBy key xs = sortBy key ys := by
  refine eq_of_perm_of_sortedKeys ?_ ?_ (sortBy_sorted key xs) (sortBy_sorted key ys)
  · exact (sortBy_perm key xs).trans (hp.trans (sortBy_perm key ys).symm)
  · exact ((sortBy_perm key xs).map key).nodup_iff.2 hn

theorem map_sortBy (key : β → K) (f : α → β) (xs : List α) :
    (sortBy (fun x => key (f x)) xs).map f = sortBy key (xs.map f) :=
  List.map_insertionSort _ _ f xs fun _ _ _ _ => Iff.rfl

theorem filter_orderedInsert (key : α → K) (p : α → Bool) (a : α) {l : List α}
    (hl : l.Pairwise fun a b => key a ≤ key b) :
    (l.orderedInsert (fun a b => key a ≤ key b) a).filter p =
      if p a then (l.filter p).orderedInsert (fun a b => key a ≤ key b) a else l.filter p := by
  induction l with
  | nil => by_cases ha : p a <;> simp [ha]
  | cons b t ih =>
    rw [List.pairwise_cons] at hl
    rcases le_or_gt (key a) (key b) with hab | hab
    · rw [List.orderedInsert, if_pos hab]
      by_cases ha : p a
      · have hfirst : ∀ c ∈ (b :: t).filter p, key a ≤ key c := by
          intro c hc
          rcases List.mem_cons.1 (List.mem_of_mem_filter hc) with rfl | hc'
          · exact hab
          · exact hab.trans (hl.1 c hc')
        rw [List.filter_cons_of_pos ha, if_pos ha]
        cases hf : (b :: t).filter p with
        | nil => rfl
        | cons c rest => rw [List.orderedInsert, if_pos (hfirst c (by simp [hf]))]
      · rw [List.filter_cons_of_neg ha, if_neg ha]
    · have hnot : ¬ key a ≤ key b := not_le.2 hab
      rw [List.orderedInsert, if_neg hnot]
      by_cases hb : p b
      · rw [List.filter_cons_of_pos hb, List.filter_cons_of_pos hb, ih hl.2]
        by_cases ha : p a
        · rw [if_pos ha, if_pos ha, List.orderedInsert, if_neg hnot]
        · rw [if_neg ha, if_neg ha]
      · rw [List.filter_cons_of_neg hb, List.filter_cons_of_neg hb, ih hl.2]

theorem filter_sortBy (key : α → K) (p : α → Bool) (xs : List α) :
    (sortBy key xs).filter p = sortBy key (xs.filter p) := by
  induction xs with
  | nil => rfl
  | cons a t ih =>
    have hcons : ∀ l, sortBy key (a :: l) = (sortBy key l).orderedInsert (fun a b => key a ≤ key b) a := fun _ => rfl
    rw [hcons, filter_orderedInsert key p a (sortBy_sorted key t), ih]
    by_cases ha : p a
    · rw [if_pos ha, List.filter_cons_of_pos ha, hcons]
    · rw [if_neg ha, List.filter_cons_of_neg ha]

theorem forall₂_orderedInsert {R : α → α → Prop} {x y : α} (hkey : ∀ a b, R a b → key a = key b) (hxy : R x y)
    (h : List.Forall₂ R xs ys) :
    List.Forall₂ R (xs.orderedInsert (fun a b => key a ≤ key b) x) (ys.orderedInsert (fun a b => key a ≤ key b) y) := by
  induction h with
  | nil => exact .cons hxy .nil
  | cons hab hrest ih =>
    rw [List.orderedInsert, List.orderedInsert, hkey _ _ hxy, hkey _ _ hab]
    split_ifs
    · exact .cons hxy (.cons hab hrest)
    · exact .cons hab ih

/-- related lists with the same keys sort to related lists -/
theorem forall₂_sortBy {R : α → α → Prop} (hkey : ∀ a b, R a b → key a = key b) (h : List.Forall₂ R xs ys) :
    List.Forall₂ R (sortBy key xs) (sortBy key ys) := by
  induction h with
  | nil => exact .nil
  | cons hab _ ih => exact forall₂_orderedInsert hkey hab ih

/-- `tuple(sorted(set(xs)))` -/
def sortedSet (xs : List K) : List K := xs.dedup.insertionSort (· ≤ ·)

@[simp] theorem mem_sortedSet {xs : List K} {x : K} : x ∈ sortedSet xs ↔ x ∈ xs := by
  simp [sortedSet]

theorem sortedSet_singleton (x : K) : [x] = sortedSet [x] := by simp [sortedSet]

theorem sortedSet_nodup (xs : List K) : (sortedSet xs).Nodup :=
  (List.perm_insertionSort _ _).nodup_iff.2 xs.nodup_dedup

theorem sortedSet_sorted (xs : List K) : (sortedSet xs).Pairwise (· ≤ ·) :=
  List.pairwise_insertionSort (· ≤ ·) xs.dedup

theorem sortedSet_congr {xs ys : List K} (h : ∀ x, x ∈ xs ↔ x ∈ ys) : sortedSet xs = sortedSet ys := by
  refine List.Perm.eq_of_pairwise ?_ (sortedSet_sorted xs) (sortedSet_sorted ys) ?_
  · intro a b _ _ hab hba
    exact le_antisymm hab hba
  · rw [List.perm_ext_iff_of_nodup (sortedSet_nodup xs) (sortedSet_nodup ys)]
    intro x
    rw [mem_sortedSet, mem_sortedSet, h]

theorem sortedSet_eq {xs ys : List K} (hys : ys.Pairwise (· < ·)) (h : ∀ x, x ∈ ys ↔ x ∈ xs) : sortedSet xs = ys := by
  refine List.Perm.eq_of_pairwise ?_ (sortedSet_sorted xs) (hys.imp le_of_lt) ?_
  · intro a b _ _ hab hba
    exact le_antisymm hab hba
  · rw [List.perm_ext_iff_of_nodup (sortedSet_nodup xs) (hys.imp ne_of_lt)]
    intro x
    rw [mem_sortedSet, h]

theorem sortedSet_increasing (xs : List K) : (sortedSet xs).Pairwise (· < ·) :=
  (sortedSet_sorted xs).imp₂ (fun _ _ hle hne => lt_of_le_of_ne hle hne) (sortedSet_nodup xs)

end Apar
