/-
What the counts of the threshold search (`defense/thresholds.py`) are: the same as a recount of the replayed actions, one by
one.

- `Replay`: the recount, from the actions that a pair of thresholds gives.
- `statistics_eq`: the counts from a score on, of the search.
- `falseDeclines_eq`, `challenges_eq`, `falseInterventions_eq`, `fraudInterventions_eq`: and the recount from them.
-/
import Apar.Defense.Thresholds

namespace Apar

open Exec

namespace Thresholds

/-! ## The recount -/

namespace Replay

/-- the actions of a pair of thresholds -/
def actions (i : SearchInput) (challenge decline : ℚ) : List Action := applyActions i.scores i.mandatory challenge decline

/-- how many rows have a label and a replayed action that satisfy -/
def count (i : SearchInput) (p : Bool → Action → Bool) (challenge decline : ℚ) : ℕ :=
  (i.labels.zip (actions i challenge decline)).countP fun row => p row.1 row.2

def falseDeclines (i : SearchInput) : ℚ → ℚ → ℕ := count i fun isFraud action => !isFraud && action = .decline

def challenges (i : SearchInput) : ℚ → ℚ → ℕ := count i fun _ action => action = .challenge

def interventions (i : SearchInput) : ℚ → ℚ → ℕ := count i fun _ action => action ≠ .approve

def falseInterventions (i : SearchInput) : ℚ → ℚ → ℕ := count i fun isFraud action => !isFraud && action ≠ .approve

def fraudInterventions (i : SearchInput) : ℚ → ℚ → ℕ := count i fun isFraud action => isFraud && action ≠ .approve

/-- what the counter says of the replayed actions -/
def reviewCases (i : SearchInput) (challenge decline : ℚ) : ℤ := (i.counter 0 (actions i challenge decline)).getD 0

def falseDeclineRate (i : SearchInput) (challenge decline : ℚ) : ℚ := falseDeclines i challenge decline / i.legitimateCount

def challengeRate (i : SearchInput) (challenge decline : ℚ) : ℚ := challenges i challenge decline / i.rowCount

def reviewRate (i : SearchInput) (challenge decline : ℚ) : ℚ := reviewCases i challenge decline / i.rowCount

/-- the share of the fraud, or its value, that is not approved -/
def objective (i : SearchInput) (challenge decline : ℚ) : Option ℚ :=
  match i.values with
  | none => some (fraudInterventions i challenge decline / i.fraudCount)
  | some values =>
    let captured := ((i.labels.zip (actions i challenge decline)).zip values).filter fun row => row.1.1 && row.1.2 ≠ .approve
    fsum (captured.map Prod.snd)

/-- a pair of candidates that keeps the budget -/
def Feasible (i : SearchInput) (challenge decline : ℚ) : Prop :=
  challenge ≤ decline ∧ falseDeclineRate i challenge decline ≤ i.budget.falseDeclineRateMax ∧
    challengeRate i challenge decline ≤ i.budget.challengeRateMax ∧ reviewRate i challenge decline ≤ i.budget.reviewCaseRateMax

instance (i : SearchInput) (challenge decline : ℚ) : Decidable (Feasible i challenge decline) := by
  unfold Feasible
  infer_instance

end Replay

/-- what the inputs of the search are -/
structure SearchInput.Valid (i : SearchInput) : Prop where
  labels : i.labels.length = i.scores.length
  mandatory : i.mandatory.length = i.scores.length
  values : ∀ vs, i.values = some vs → vs.length = i.scores.length ∧ ∀ v ∈ vs, 0 ≤ v
  scores : ∀ s ∈ i.scores, 0 < s ∧ s < 1
  legitimate : 0 < i.legitimateCount
  fraud : 0 < i.fraudCount
  unique : i.scores.dedup.length ≤ maxUniqueOperatingScores

/-! ## Rows -/

def SearchInput.rows (i : SearchInput) : List Row := rowsOf i.scores i.labels i.mandatory

theorem zip_applyActions (challenge decline : ℚ) {scores : List ℚ} {labels : List Bool} {mandatory : List Action}
    (hlabels : labels.length = scores.length) (hmandatory : mandatory.length = scores.length) :
    labels.zip (applyActions scores mandatory challenge decline) =
      (rowsOf scores labels mandatory).map fun row => (row.2.1, actionOf challenge decline row.1 row.2.2) := by
  unfold applyActions rowsOf
  induction scores generalizing labels mandatory with
  | nil =>
    rw [List.length_eq_zero_iff.1 hlabels]
    rfl
  | cons score scores ih =>
    cases labels with
    | nil => cases hlabels
    | cons label labels =>
      cases mandatory with
      | nil => cases hmandatory
      | cons action mandatory =>
        rw [List.zipWith_cons_cons, List.zip_cons_cons, ih (Nat.succ.inj hlabels) (Nat.succ.inj hmandatory)]
        rfl

theorem map_fst_rowsOf {scores : List ℚ} {labels : List Bool} {mandatory : List Action}
    (hlabels : labels.length = scores.length) (hmandatory : mandatory.length = scores.length) :
    (rowsOf scores labels mandatory).map Prod.fst = scores := by
  refine List.map_fst_zip ?_
  rw [List.length_zip]
  omega

variable {i : SearchInput}

theorem count_eq (hi : i.Valid) (p : Bool → Action → Bool) (challenge decline : ℚ) :
    Replay.count i p challenge decline = i.rows.countP fun row => p row.2.1 (actionOf challenge decline row.1 row.2.2) := by
  rw [Replay.count, Replay.actions, zip_applyActions challenge decline hi.labels hi.mandatory, List.countP_map]
  rfl

theorem actionOf_eq_decline {challenge decline score : ℚ} {mandatory : Action} :
    actionOf challenge decline score mandatory = .decline ↔ mandatory = .decline ∨ decline ≤ score := by
  unfold actionOf
  split_ifs with hdecline hchallenge
  · simp [hdecline]
  · simp [hdecline]
  · simp [hdecline]

theorem actionOf_eq_approve {challenge decline score : ℚ} {mandatory : Action} (hle : challenge ≤ decline) :
    actionOf challenge decline score mandatory = .approve ↔ mandatory ≠ .decline ∧ score < challenge := by
  unfold actionOf
  split_ifs with hdecline hchallenge
  · rcases hdecline with h | h
    · simp [h]
    · simp [hle.trans h]
  · simp [hchallenge]
  · rw [not_or] at hdecline
    simpa [hdecline.1] using hchallenge

theorem actionOf_eq_challenge {challenge decline score : ℚ} {mandatory : Action} :
    actionOf challenge decline score mandatory = .challenge ↔ mandatory ≠ .decline ∧ challenge ≤ score ∧ score < decline := by
  unfold actionOf
  split_ifs with hdecline hchallenge
  · rcases hdecline with h | h
    · simp [h]
    · simp [h]
  · rw [not_or, not_le] at hdecline
    simp [hdecline, hchallenge]
  · simp [hchallenge]

/-! ## Groups -/

theorem getD_increment (group : Dict ℚ ℕ) (score t : ℚ) :
    (increment group score).getD t 0 = group.getD t 0 + if score = t then 1 else 0 := by
  rw [increment, Dict.getD_set]
  by_cases h : t = score
  · rw [if_pos h, if_pos h.symm, h]
  · rw [if_neg h, if_neg (Ne.symm h), add_zero]

/-- a row that no action is mandatory for -/
def isFree (row : Row) : Bool := row.2.2 ≠ .decline

/-- what the groups count -/
theorem foldl_add (rows : List Row) (g : Groups) :
    (∀ t, (rows.foldl Groups.add g).nonmandatory.getD t 0 =
      g.nonmandatory.getD t 0 + (rows.filter isFree).countP fun row => row.1 = t) ∧
    (∀ t, (rows.foldl Groups.add g).legitimate.getD t 0 =
      g.legitimate.getD t 0 + (rows.filter fun row => isFree row && !row.2.1).countP fun row => row.1 = t) ∧
    (∀ t, (rows.foldl Groups.add g).fraud.getD t 0 =
      g.fraud.getD t 0 + (rows.filter fun row => isFree row && row.2.1).countP fun row => row.1 = t) ∧
    (rows.foldl Groups.add g).mandatoryLegitimate = g.mandatoryLegitimate + rows.countP (fun row => !isFree row && !row.2.1) ∧
    (rows.foldl Groups.add g).mandatoryFraud = g.mandatoryFraud + rows.countP fun row => !isFree row && row.2.1 := by
  induction rows generalizing g with
  | nil => simp
  | cons row rows ih =>
    obtain ⟨score, isFraud, action⟩ := row
    obtain ⟨hall, hlegitimate, hfraud, hmandatoryLegitimate, hmandatoryFraud⟩ := ih (g.add (score, isFraud, action))
    rw [List.foldl_cons, hmandatoryLegitimate, hmandatoryFraud]
    simp only [hall, hlegitimate, hfraud]
    by_cases haction : action = .decline
    · cases isFraud with
      | true => simp [Groups.add, isFree, haction, Nat.add_assoc, Nat.add_comm]
      | false => simp [Groups.add, isFree, haction, Nat.add_assoc, Nat.add_comm]
    · cases isFraud with
      | true => simp [Groups.add, isFree, haction, getD_increment, List.countP_cons, Nat.add_assoc, Nat.add_comm, Nat.add_left_comm]
      | false => simp [Groups.add, isFree, haction, getD_increment, List.countP_cons, Nat.add_assoc, Nat.add_comm, Nat.add_left_comm]

/-- the rows of a kind whose score is not below -/
def fromScore (i : SearchInput) (p : Row → Bool) (t : ℚ) : ℕ := (i.rows.filter p).countP fun row => t ≤ row.1

theorem candidates_sorted (i : SearchInput) : i.candidates.Pairwise (· < ·) := by
  have hle := sortedSet_sorted (0 :: 1 :: i.scores)
  have hne := sortedSet_nodup (0 :: 1 :: i.scores)
  exact (hle.and hne).imp fun h => lt_of_le_of_ne h.1 h.2

theorem mem_candidates {i : SearchInput} {t : ℚ} : t ∈ i.candidates ↔ t = 0 ∨ t = 1 ∨ t ∈ i.scores := by
  rw [SearchInput.candidates, mem_sortedSet, List.mem_cons, List.mem_cons]

theorem score_mem_candidates (hi : i.Valid) {row : Row} (hrow : row ∈ i.rows) : row.1 ∈ i.candidates := by
  have hfst := map_fst_rowsOf hi.labels hi.mandatory
  rw [mem_candidates, ← hfst]
  exact .inr (.inr (List.mem_map_of_mem hrow))

theorem suffixSums_eq (hi : i.Valid) {p : Row → Bool} {group : ℚ → ℕ}
    (hgroup : ∀ t, group t = (i.rows.filter p).countP fun row => row.1 = t) {k : ℕ} (hk : k < i.candidates.length) :
    (Bisection.suffixSums group i.candidates).getD k 0 = fromScore i p i.candidates[k] := by
  rw [Bisection.getD_suffixSums, funext hgroup]
  exact Bisection.sum_counts_drop (candidates_sorted i) Prod.fst
    (fun row hrow => score_mem_candidates hi (List.mem_of_mem_filter hrow)) hk

/-- **The counts of the search**, from the score of a candidate on. -/
theorem statistics_eq (hi : i.Valid) :
    (∀ k (hk : k < i.candidates.length),
      i.statistics.nonmandatoryGe.getD k 0 = fromScore i isFree i.candidates[k] ∧
      i.statistics.legitimateGe.getD k 0 = fromScore i (fun row => isFree row && !row.2.1) i.candidates[k] ∧
      i.statistics.fraudGe.getD k 0 = fromScore i (fun row => isFree row && row.2.1) i.candidates[k]) ∧
    i.statistics.mandatoryLegitimate = i.rows.countP (fun row => !isFree row && !row.2.1) ∧
    i.statistics.mandatoryFraud = i.rows.countP fun row => !isFree row && row.2.1 := by
  obtain ⟨hall, hlegitimate, hfraud, hmandatoryLegitimate, hmandatoryFraud⟩ := foldl_add i.rows {}
  have hzero : ∀ t, (∅ : Dict ℚ ℕ).getD t 0 = 0 := fun _ => rfl
  refine ⟨fun k hk => ⟨?_, ?_, ?_⟩, ?_, ?_⟩
  · exact suffixSums_eq hi (fun t => (hall t).trans (by rw [hzero, Nat.zero_add])) hk
  · exact suffixSums_eq hi (fun t => (hlegitimate t).trans (by rw [hzero, Nat.zero_add])) hk
  · exact suffixSums_eq hi (fun t => (hfraud t).trans (by rw [hzero, Nat.zero_add])) hk
  · exact hmandatoryLegitimate.trans (Nat.zero_add _)
  · exact hmandatoryFraud.trans (Nat.zero_add _)

/-! ## The recount from the counts -/

theorem countP_split {α : Type} {p q r : α → Bool} {xs : List α}
    (h : ∀ x ∈ xs, (if p x then 1 else 0) = (if q x then 1 else 0) + if r x then 1 else 0) :
    xs.countP p = xs.countP q + xs.countP r := by
  induction xs with
  | nil => rfl
  | cons x xs ih =>
    have hx := h x List.mem_cons_self
    have hrest := ih fun y hy => h y (List.mem_cons_of_mem _ hy)
    rw [List.countP_cons, List.countP_cons, List.countP_cons, hrest, hx]
    omega

theorem fromScore_eq (i : SearchInput) (p : Row → Bool) (t : ℚ) :
    fromScore i p t = i.rows.countP fun row => decide (t ≤ row.1) && p row := List.countP_filter ..

variable {challenge decline : ℚ}

theorem falseDeclines_eq (hi : i.Valid) :
    Replay.falseDeclines i challenge decline =
      i.rows.countP (fun row => !isFree row && !row.2.1) + fromScore i (fun row => isFree row && !row.2.1) decline := by
  rw [Replay.falseDeclines, count_eq hi, fromScore_eq]
  refine countP_split fun row _ => ?_
  simp only [actionOf_eq_decline]
  by_cases hfree : row.2.2 = .decline
  · simp [isFree, hfree]
  · cases row.2.1 <;> simp [isFree, hfree]

theorem challenges_eq (hi : i.Valid) (hle : challenge ≤ decline) :
    fromScore i isFree challenge = Replay.challenges i challenge decline + fromScore i isFree decline := by
  rw [Replay.challenges, count_eq hi, fromScore_eq, fromScore_eq]
  refine countP_split fun row _ => ?_
  simp only [actionOf_eq_challenge]
  by_cases hfree : row.2.2 = .decline
  · simp [isFree, hfree]
  · by_cases hdecline : decline ≤ row.1
    · simp [isFree, hfree, hdecline, hle.trans hdecline]
    · simp [isFree, hfree, hdecline, not_le.1 hdecline]

theorem falseInterventions_eq (hi : i.Valid) (hle : challenge ≤ decline) :
    Replay.falseInterventions i challenge decline =
      i.rows.countP (fun row => !isFree row && !row.2.1) + fromScore i (fun row => isFree row && !row.2.1) challenge := by
  rw [Replay.falseInterventions, count_eq hi, fromScore_eq]
  refine countP_split fun row _ => ?_
  simp only [ne_eq, actionOf_eq_approve hle]
  by_cases hfree : row.2.2 = .decline
  · simp [isFree, hfree]
  · cases row.2.1 <;> simp [isFree, hfree]

theorem fraudInterventions_eq (hi : i.Valid) (hle : challenge ≤ decline) :
    Replay.fraudInterventions i challenge decline =
      i.rows.countP (fun row => !isFree row && row.2.1) + fromScore i (fun row => isFree row && row.2.1) challenge := by
  rw [Replay.fraudInterventions, count_eq hi, fromScore_eq]
  refine countP_split fun row _ => ?_
  simp only [ne_eq, actionOf_eq_approve hle]
  by_cases hfree : row.2.2 = .decline
  · simp [isFree, hfree]
  · cases row.2.1 <;> simp [isFree, hfree]

theorem interventions_eq (hi : i.Valid) :
    Replay.interventions i challenge decline =
      Replay.falseInterventions i challenge decline + Replay.fraudInterventions i challenge decline := by
  rw [Replay.interventions, Replay.falseInterventions, Replay.fraudInterventions, count_eq hi, count_eq hi, count_eq hi]
  refine countP_split fun row _ => ?_
  cases row.2.1 <;> simp

end Thresholds

end Apar
