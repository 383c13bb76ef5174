/-
A two-pointer sweep: rows and a history are both sorted by time, and before the rows of one time emit, the history strictly
before that time is absorbed into the state. A library: rows, histories, states and emissions are parameters.

- `sweep_sorted`: the sweep is pointwise. Each row emits from the state that the history strictly before its time leaves.
-/
import Apar.Core.Cohorts

namespace Apar

namespace Cohorts

variable {α β η σ T : Type} [LinearOrder T] (time : α → T) (seenAt : η → T)

/-- the rows of one time emit from what the history before it leaves -/
def sweep (absorb : σ → η → σ) (emit : σ → α → β) : σ → List η → List (List α) → List β
  | _, _, [] => []
  | s, history, [] :: rest => sweep absorb emit s history rest
  | s, history, (row :: cohort) :: rest =>
    let known := history.takeWhile fun e => seenAt e < time row
    let later := known.foldl absorb s
    (row :: cohort).map (emit later) ++
      sweep absorb emit later (history.dropWhile fun e => seenAt e < time row) rest

variable {time seenAt}

/-- the sorted history before a time is a prefix of it -/
theorem takeWhile_eq_past {history : List η} (h : history.Pairwise fun a b => seenAt a ≤ seenAt b) (t : T) :
    (history.takeWhile fun e => seenAt e < t) = past seenAt history t ∧
      ∀ e ∈ history.dropWhile fun e => seenAt e < t, t ≤ seenAt e := by
  induction history with
  | nil => exact ⟨rfl, nofun⟩
  | cons e history ih =>
    obtain ⟨hlater, hsorted⟩ := List.pairwise_cons.1 h
    by_cases he : seenAt e < t
    · rcases ih hsorted with ⟨htake, hdrop⟩
      rw [List.takeWhile_cons_of_pos (by simpa using he), List.dropWhile_cons_of_pos (by simpa using he), past,
        List.filter_cons_of_pos (by simpa using he), htake]
      exact ⟨rfl, hdrop⟩
    · have hall : ∀ x ∈ e :: history, t ≤ seenAt x := by
        intro x hx
        rcases List.mem_cons.1 hx with rfl | hx
        · exact not_lt.1 he
        · exact (not_lt.1 he).trans (hlater x hx)
      rw [List.takeWhile_cons_of_neg (by simpa using he), List.dropWhile_cons_of_neg (by simpa using he),
        past_eq_nil hall]
      exact ⟨rfl, hall⟩

theorem sweep_ordered (absorb : σ → η → σ) (emit : σ → α → β) (s : σ) {history : List η}
    (hhistory : history.Pairwise fun a b => seenAt a ≤ seenAt b) {groups : List (List α)} (h : Ordered time groups) :
    sweep time seenAt absorb emit s history groups =
      groups.flatten.map fun r => emit ((past seenAt history (time r)).foldl absorb s) r := by
  induction groups generalizing s history with
  | nil => rfl
  | cons cohort rest ih =>
    obtain ⟨hne, huniform, hincreasing⟩ := h
    obtain ⟨hlater, hincreasing⟩ := List.pairwise_cons.1 hincreasing
    have hrest : Ordered time rest :=
      ⟨fun c hc => hne c (by simp [hc]), fun c hc => huniform c (by simp [hc]), hincreasing⟩
    cases cohort with
    | nil => exact absurd rfl (hne [] (by simp))
    | cons row cohort =>
      rcases takeWhile_eq_past hhistory (time row) with ⟨htake, hdrop⟩
      have hsplit : history = past seenAt history (time row) ++ history.dropWhile fun e => seenAt e < time row := by
        rw [← htake, List.takeWhile_append_dropWhile]
      have hdropped : (history.dropWhile fun e => seenAt e < time row).Pairwise fun a b => seenAt a ≤ seenAt b :=
        hhistory.sublist (List.dropWhile_sublist _)
      rw [sweep, ih _ hdropped hrest, htake, List.flatten_cons, List.map_append]
      congr 1
      · refine List.map_congr_left fun r hr => ?_
        rw [huniform _ List.mem_cons_self row List.mem_cons_self r hr]
      · refine List.map_congr_left fun r hr => ?_
        obtain ⟨d, hd, hrd⟩ := List.mem_flatten.1 hr
        have hlt : time row < time r := hlater d hd row List.mem_cons_self r hrd
        -- what was absorbed is before the later time as well
        have hpast : past seenAt history (time r) = past seenAt history (time row) ++
            past seenAt (history.dropWhile fun e => seenAt e < time row) (time r) := by
          conv_lhs => rw [hsplit]
          rw [past_append, past_eq_self fun e he => (mem_past.1 he).2.trans hlt]
        rw [hpast, List.foldl_append]

/-- **The sweep is pointwise**: over a sorted history, each sorted row emits from the history strictly before its time. -/
theorem sweep_sorted (absorb : σ → η → σ) (emit : σ → α → β) (s : σ) {history : List η}
    (hhistory : history.Pairwise fun a b => seenAt a ≤ seenAt b) {rows : List α}
    (h : rows.Pairwise fun a b => time a ≤ time b) :
    sweep time seenAt absorb emit s history (cohorts time rows) =
      rows.map fun r => emit ((past seenAt history (time r)).foldl absorb s) r := by
  rw [sweep_ordered absorb emit s hhistory (cohorts_ordered h), cohorts_flatten]

end Cohorts

end Apar
