/-
A fold over cohorts: rows sorted by time are grouped by equal time, every row of a cohort emits from the state before
the cohort, and only then do its rows update the state. A library: rows, states, emissions and errors are parameters.

- `runCohorts_sorted`: the fold is pointwise. Each row emits from the state that the rows strictly before its time
  leave, in their order; rows of its own time and later ones play no part.
- `emitted_congr`: rows with the same strict past emit alike.
-/
import Mathlib.Data.List.SplitBy
import Apar.Core.Exec
import Apar.Core.Sorting

namespace Apar

open Exec

namespace Cohorts

variable {α β ε σ T : Type} [LinearOrder T] (time : α → T)

/-- consecutive rows of one time -/
def cohorts (rows : List α) : List (List α) := rows.splitBy fun a b => time a == time b

/-- a cohort emits from the state before it, then updates it -/
def runCohorts (emit : σ → α → Except ε β) (update : σ → α → σ) : σ → List (List α) → Except ε (List β)
  | _, [] => .ok []
  | s, cohort :: rest => do
    let emitted ← cohort.mapM (emit s)
    let later ← runCohorts emit update (cohort.foldl update s) rest
    pure (emitted ++ later)

/-- the rows strictly before a time -/
def past (rows : List α) (t : T) : List α := rows.filter fun r => time r < t

variable {time}

variable {rows : List α} {groups : List (List α)}

theorem mem_past {t : T} {r : α} : r ∈ past time rows t ↔ r ∈ rows ∧ time r < t := by
  unfold past
  rw [List.mem_filter, decide_eq_true_eq]

/-! ## The cohorts of sorted rows -/

/-- cohorts of one time each, in increasing order of time -/
structure Ordered (time : α → T) (groups : List (List α)) : Prop where
  nonempty : ∀ c ∈ groups, c ≠ []
  uniform : ∀ c ∈ groups, ∀ a ∈ c, ∀ b ∈ c, time a = time b
  increasing : groups.Pairwise fun c d => ∀ a ∈ c, ∀ b ∈ d, time a < time b

theorem cohorts_flatten (rows : List α) : (cohorts time rows).flatten = rows := List.flatten_splitBy _ _

/-- neighbours of different times make nonstrict order strict -/
theorem increasing_of_le (hnonempty : ∀ c ∈ groups, c ≠ []) (huniform : ∀ c ∈ groups, ∀ a ∈ c, ∀ b ∈ c, time a = time b)
    (hle : groups.Pairwise fun c d => ∀ a ∈ c, ∀ b ∈ d, time a ≤ time b)
    (hchain : groups.IsChain fun c d => ∃ (hc : c ≠ []) (hd : d ≠ []), time (c.getLast hc) ≠ time (d.head hd)) :
    groups.Pairwise fun c d => ∀ a ∈ c, ∀ b ∈ d, time a < time b := by
  induction groups with
  | nil => exact .nil
  | cons c rest ih =>
    obtain ⟨hfirst, hle⟩ := List.pairwise_cons.1 hle
    refine List.pairwise_cons.2 ⟨?_, ih (fun d hd => hnonempty d (by simp [hd])) (fun d hd => huniform d (by simp [hd]))
      hle hchain.tail⟩
    intro d hd a ha b hb
    cases rest with
    | nil => cases hd
    | cons e rest =>
      obtain ⟨⟨hc, he, hne⟩, -⟩ := List.isChain_cons_cons.1 hchain
      have hlast := huniform c (by simp) a ha _ (List.getLast_mem hc)
      have hnext : time a < time (e.head he) :=
        lt_of_le_of_ne (hfirst e (by simp) a ha _ (List.head_mem he)) (hlast ▸ hne)
      have hhead : time (e.head he) ≤ time b := by
        rcases List.mem_cons.1 hd with rfl | hd
        · exact (huniform d (by simp) _ (List.head_mem he) b hb).le
        · exact (List.pairwise_cons.1 hle).1 d hd _ (List.head_mem he) b hb
      exact hnext.trans_le hhead

theorem cohorts_ordered (h : rows.Pairwise fun a b => time a ≤ time b) : Ordered time (cohorts time rows) := by
  have hnonempty : ∀ c ∈ cohorts time rows, c ≠ [] := fun c hc => List.ne_nil_of_mem_splitBy hc
  have huniform : ∀ c ∈ cohorts time rows, ∀ a ∈ c, ∀ b ∈ c, time a = time b := by
    intro c hc
    have hchain : c.IsChain fun a b => time a = time b := by
      have := List.isChain_of_mem_splitBy hc
      simpa only [beq_iff_eq] using this
    have : IsTrans α fun a b => time a = time b := ⟨fun _ _ _ => Eq.trans⟩
    have hpair := List.isChain_iff_pairwise.1 hchain
    have : Std.Symm fun a b : α => time a = time b := ⟨fun _ _ => Eq.symm⟩
    intro a ha b hb
    exact List.Pairwise.forall_of_forall (R := fun a b : α => time a = time b) (fun _ _ => rfl) hpair ha hb
  have hle : (cohorts time rows).Pairwise fun c d => ∀ a ∈ c, ∀ b ∈ d, time a ≤ time b := by
    have hflatten : (cohorts time rows).flatten.Pairwise fun a b => time a ≤ time b := by rwa [cohorts_flatten]
    exact (List.pairwise_flatten.1 hflatten).2
  have hchain := List.isChain_getLast_head_splitBy (fun a b => time a == time b) rows
  simp only [beq_eq_false_iff_ne] at hchain
  exact ⟨hnonempty, huniform, increasing_of_le hnonempty huniform hle hchain⟩

/-! ## The fold is pointwise -/

theorem past_append (xs ys : List α) (t : T) : past time (xs ++ ys) t = past time xs t ++ past time ys t :=
  List.filter_append _ _

theorem past_eq_self {t : T} (h : ∀ r ∈ rows, time r < t) : past time rows t = rows :=
  List.filter_eq_self.2 fun r hr => decide_eq_true (h r hr)

theorem past_eq_nil {t : T} (h : ∀ r ∈ rows, t ≤ time r) : past time rows t = [] :=
  List.filter_eq_nil_iff.2 fun r hr => by simpa using h r hr

/-- what a row emits from its strict past among the rows -/
def emitted (time : α → T) (emit : σ → α → Except ε β) (update : σ → α → σ) (s : σ) (rows : List α) (r : α) :
    Except ε β :=
  emit ((past time rows (time r)).foldl update s) r

theorem runCohorts_ordered (emit : σ → α → Except ε β) (update : σ → α → σ) (s : σ) (h : Ordered time groups) :
    runCohorts emit update s groups = groups.flatten.mapM (emitted time emit update s groups.flatten) := by
  induction groups generalizing s with
  | nil => rfl
  | cons cohort rest ih =>
    obtain ⟨hne, huniform, hincreasing⟩ := h
    obtain ⟨hlater, hincreasing⟩ := List.pairwise_cons.1 hincreasing
    have hrest : Ordered time rest :=
      ⟨fun c hc => hne c (by simp [hc]), fun c hc => huniform c (by simp [hc]), hincreasing⟩
    have hafter : ∀ r ∈ rest.flatten, ∀ a ∈ cohort, time a < time r := by
      intro r hr a ha
      obtain ⟨d, hd, hr⟩ := List.mem_flatten.1 hr
      exact hlater d hd a ha r hr
    -- a row of the cohort has nothing before it, a later one has the whole cohort
    have hhere : ∀ r ∈ cohort, emitted time emit update s (cohort ++ rest.flatten) r = emit s r := by
      intro r hr
      have hpast : past time (cohort ++ rest.flatten) (time r) = [] := by
        apply past_eq_nil
        intro a ha
        rcases List.mem_append.1 ha with ha | ha
        · exact (huniform cohort (by simp) r hr a ha).le
        · exact (hafter a ha r hr).le
      unfold emitted
      rw [hpast, List.foldl_nil]
    have hthere : ∀ r ∈ rest.flatten, emitted time emit update s (cohort ++ rest.flatten) r =
        emitted time emit update (cohort.foldl update s) rest.flatten r := by
      intro r hr
      unfold emitted
      rw [past_append, past_eq_self (hafter r hr), List.foldl_append]
    rw [runCohorts, ih _ hrest, List.flatten_cons, List.mapM_append, mapM_congr_mem hhere, mapM_congr_mem hthere]

/-- **The fold is pointwise**: over sorted rows, each row emits from the rows strictly before its time. -/
theorem runCohorts_sorted (emit : σ → α → Except ε β) (update : σ → α → σ) (s : σ)
    (h : rows.Pairwise fun a b => time a ≤ time b) :
    runCohorts emit update s (cohorts time rows) = rows.mapM (emitted time emit update s rows) := by
  rw [runCohorts_ordered emit update s (cohorts_ordered h), cohorts_flatten]

theorem emitted_congr (emit : σ → α → Except ε β) (update : σ → α → σ) (s : σ) {rows' : List α} {r : α}
    (h : past time rows (time r) = past time rows' (time r)) :
    emitted time emit update s rows r = emitted time emit update s rows' r := by
  unfold emitted
  rw [h]

/-! ## Cohorts by their times -/

theorem Ordered.eq_filter (h : Ordered time groups) :
    groups = (sortedSet (groups.flatten.map time)).map fun t => groups.flatten.filter fun r => time r = t := by
  induction groups with
  | nil => rfl
  | cons cohort rest ih =>
    obtain ⟨hne, huniform, hincreasing⟩ := h
    obtain ⟨hlater, hincreasing⟩ := List.pairwise_cons.1 hincreasing
    have hrest : Ordered time rest :=
      ⟨fun c hc => hne c (by simp [hc]), fun c hc => huniform c (by simp [hc]), hincreasing⟩
    obtain ⟨a, ha⟩ := List.exists_mem_of_ne_nil cohort (hne cohort List.mem_cons_self)
    have hhere : ∀ r ∈ cohort, time r = time a := fun r hr => huniform cohort List.mem_cons_self r hr a ha
    have hafter : ∀ r ∈ rest.flatten, time a < time r := by
      intro r hr
      obtain ⟨d, hd, hr⟩ := List.mem_flatten.1 hr
      exact hlater d hd a ha r hr
    have htimes : sortedSet ((cohort :: rest).flatten.map time) = time a :: sortedSet (rest.flatten.map time) := by
      refine sortedSet_eq (List.pairwise_cons.2 ⟨fun t ht => ?_, sortedSet_increasing _⟩) fun t => ?_
      · obtain ⟨r, hr, rfl⟩ := List.mem_map.1 (mem_sortedSet.1 ht)
        exact hafter r hr
      · rw [List.flatten_cons, List.map_append, List.mem_append, List.mem_cons, mem_sortedSet]
        refine or_congr_left ⟨?_, ?_⟩
        · intro ht
          exact ht ▸ List.mem_map_of_mem ha
        · intro ht
          obtain ⟨r, hr, rfl⟩ := List.mem_map.1 ht
          exact hhere r hr
    rw [htimes, List.map_cons, List.flatten_cons]
    congr 1
    · rw [List.filter_append, List.filter_eq_self.2 fun r hr => decide_eq_true (hhere r hr),
        List.filter_eq_nil_iff.2 fun r hr => by simpa using (hafter r hr).ne', List.append_nil]
    · refine (ih hrest).trans (List.map_congr_left fun t ht => ?_)
      obtain ⟨r, hr, rfl⟩ := List.mem_map.1 (mem_sortedSet.1 ht)
      have hnone : (cohort.filter fun x => time x = time r) = [] := by
        refine List.filter_eq_nil_iff.2 fun x hx => ?_
        have hlt := (hhere x hx).trans_lt (hafter r hr)
        simpa using hlt.ne
      rw [List.filter_append, hnone, List.nil_append]

/-- **The cohorts of sorted rows**, one for each of their times. -/
theorem cohorts_eq (h : rows.Pairwise fun a b => time a ≤ time b) :
    cohorts time rows = (sortedSet (rows.map time)).map fun t => rows.filter fun r => time r = t := by
  have heq := (cohorts_ordered h).eq_filter
  rwa [cohorts_flatten] at heq

end Cohorts

end Apar
