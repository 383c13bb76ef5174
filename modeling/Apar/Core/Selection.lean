/-
Selections from lists, as Python's comprehensions and `max` make them. A library: nothing here is about payments.

- `keepM` is a comprehension whose condition may raise; `keepM_eq` is what it keeps when it does not.
- `maxBy` is the first of the greatest elements, for a comparison that need not be an order: it is one of the elements
  (`maxBy_mem`), and there is one whenever there are elements (`maxBy_isSome`).
-/
import Apar.Core.Exec

namespace Apar

namespace Selection

open Exec

variable {ε α : Type}

/-! ## Comprehensions -/

/-- `[x for x in xs if test(x)]` -/
def keepM (test : α → Except ε Bool) (xs : List α) : Except ε (List α) :=
  xs.foldlM (fun kept x => do
    let keep ← test x
    pure (if keep then kept ++ [x] else kept)) []

/-- a condition that never raises -/
theorem keepM_eq {test : α → Except ε Bool} {p : α → Bool} {xs : List α} (h : ∀ x ∈ xs, test x = .ok (p x)) :
    keepM test xs = .ok (xs.filter p) := by
  have hrun : ∀ kept, xs.foldlM (fun kept x => do
      let keep ← test x
      pure (if keep then kept ++ [x] else kept)) kept = .ok (kept ++ xs.filter p) := by
    induction xs with
    | nil =>
      intro kept
      rw [List.filter_nil, List.append_nil]
      rfl
    | cons x xs ih =>
      intro kept
      have hrest := ih fun y hy => h y (List.mem_cons_of_mem _ hy)
      rw [List.foldlM_cons, h x List.mem_cons_self, except_ok_bind]
      refine (hrest _).trans ?_
      cases hx : p x with
      | true => simp [hx]
      | false => simp [hx]
  exact hrun []

/-! ## The greatest element -/

/-- `max(xs)`, of elements compared by `lt`: an element replaces those before it that are less -/
def maxBy (lt : α → α → Bool) : List α → Option α
  | [] => none
  | x :: xs => some (xs.foldl (fun best y => if lt best y then y else best) x)

theorem foldl_best_mem {lt : α → α → Bool} (xs : List α) (x : α) :
    xs.foldl (fun best y => if lt best y then y else best) x ∈ x :: xs := by
  induction xs generalizing x with
  | nil => exact List.mem_singleton.2 rfl
  | cons y xs ih =>
    rw [List.foldl_cons]
    rcases List.mem_cons.1 (ih (if lt x y then y else x)) with h | h
    · rw [h]
      split_ifs
      · exact List.mem_cons_of_mem _ List.mem_cons_self
      · exact List.mem_cons_self
    · exact List.mem_cons_of_mem _ (List.mem_cons_of_mem _ h)

theorem maxBy_mem {lt : α → α → Bool} {xs : List α} {x : α} (h : maxBy lt xs = some x) : x ∈ xs := by
  cases xs with
  | nil => cases h
  | cons y ys =>
    cases h
    exact foldl_best_mem ys y

theorem maxBy_isSome {lt : α → α → Bool} {xs : List α} (h : xs ≠ []) : ∃ x, maxBy lt xs = some x := by
  cases xs with
  | nil => exact absurd rfl h
  | cons y ys => exact ⟨_, rfl⟩

end Selection

end Apar
