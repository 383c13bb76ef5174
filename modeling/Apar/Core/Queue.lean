/-
Priority queues as sorted lists, as Python's `heapq` pops them. A library: nothing here is about payments.

- `heapPush_perm`: pushing adds one element.
- `heapPush_sorted`: it keeps the pop order, for any strict order.
- `map_heapPush`: a monotone image of the queue is the queue of the images.
-/
import Mathlib.Tactic
import Mathlib.Data.List.Sort

namespace Apar

variable {β γ : Type}

/-- a priority queue as the list of its elements in pop order -/
def heapPush (before : β → β → Bool) (x : β) : List β → List β
  | [] => [x]
  | y :: ys => if before x y then x :: y :: ys else y :: heapPush before x ys

theorem heapPush_perm (before : β → β → Bool) (x : β) (l : List β) : (heapPush before x l).Perm (x :: l) := by
  induction l with
  | nil => exact List.Perm.refl _
  | cons y ys ih =>
    rw [heapPush]
    split_ifs with h
    · exact List.Perm.refl _
    · exact (ih.cons y).trans (List.Perm.swap x y ys)

/-- the pop order: no element comes before an earlier one -/
def PopOrder (before : β → β → Bool) (l : List β) : Prop := l.Pairwise fun a b => before b a = false

theorem heapPush_sorted {before : β → β → Bool} (hirrefl : ∀ a, before a a = false)
    (htrans : ∀ a b c, before a b = true → before b c = true → before a c = true) (x : β) {l : List β}
    (hl : PopOrder before l) : PopOrder before (heapPush before x l) := by
  unfold PopOrder at *
  induction l with
  | nil => exact List.pairwise_singleton _ x
  | cons y ys ih =>
    rw [List.pairwise_cons] at hl
    rw [heapPush]
    split_ifs with h
    · refine List.pairwise_cons.2 ⟨fun z hz => ?_, List.pairwise_cons.2 hl⟩
      -- an element before `x` would come before `y`
      by_contra hzx
      rw [Bool.not_eq_false] at hzx
      have hzy := htrans z x y hzx h
      rcases List.mem_cons.1 hz with rfl | hz
      · rw [hirrefl] at hzy
        cases hzy
      · rw [hl.1 z hz] at hzy
        cases hzy
    · refine List.pairwise_cons.2 ⟨fun z hz => ?_, ih hl.2⟩
      rcases List.mem_cons.1 ((heapPush_perm before x ys).mem_iff.1 hz) with rfl | hz
      · exact Bool.not_eq_true _ ▸ h
      · exact hl.1 z hz

theorem PopOrder.eq_of_perm {K : Type} [LinearOrder K] {l l' : List K} (h : l.Perm l')
    (hl : PopOrder (fun a b => decide (a < b)) l) (hl' : PopOrder (fun a b => decide (a < b)) l') : l = l' := by
  refine List.Perm.eq_of_pairwise ?_ hl hl' h
  intro a b _ _ hab hba
  rw [decide_eq_false_iff_not, not_lt] at hab hba
  exact le_antisymm hab hba

/-- the keys of a queue ordered by a key first are the queue of the keys -/
theorem map_heapPush {K : Type} [LinearOrder K] {before : β → β → Bool} {key : β → K}
    (hkey : ∀ {a b}, before b a = false → key a ≤ key b) (hirrefl : ∀ a, before a a = false)
    (htrans : ∀ a b c, before a b = true → before b c = true → before a c = true) (x : β) {l : List β}
    (hl : PopOrder before l) :
    (heapPush before x l).map key = heapPush (fun a b => decide (a < b)) (key x) (l.map key) := by
  have horder : ∀ {l : List β}, PopOrder before l → PopOrder (fun a b => decide (a < b)) (l.map key) := by
    intro l hl
    refine List.pairwise_map.2 (hl.imp fun {a b} hab => ?_)
    rw [decide_eq_false_iff_not, not_lt]
    exact hkey hab
  refine PopOrder.eq_of_perm ?_ (horder (heapPush_sorted hirrefl htrans x hl)) ?_
  · exact ((heapPush_perm before x l).map key).trans (heapPush_perm _ _ _).symm
  · refine heapPush_sorted (fun a => by simp) (fun a b c hab hbc => ?_) _ (horder hl)
    rw [decide_eq_true_eq] at hab hbc ⊢
    exact hab.trans hbc

end Apar
