/-
The threshold search (`defense/thresholds.py`) finds the best pair: a turn of its loop meets, of one challenge threshold, every
decline threshold that keeps the budget.

- `falseDeclineRate_le_iff`, `challengeRate_le_iff`: the two bounds of the decline thresholds of a challenge threshold.
- `reviewCasesForChallenge_ok`: the cache and the three calls of the counter give what it says of the replayed actions.
- `Found` is the invariant of the loop, which `searchStep_found` keeps.
- `search_found`: the loop ends with it, or a value that is captured has no float.
-/
import Apar.Defense.ThresholdCounts

namespace Apar

open Exec

namespace Thresholds

variable {i : SearchInput}

/-! ## Indices -/

variable {a b k : ℕ}

theorem candidate_le_iff (ha : a < i.candidates.length) (hb : b < i.candidates.length) :
    i.candidates[a] ≤ i.candidates[b] ↔ a ≤ b := by
  have hlt := List.pairwise_iff_getElem.1 (candidates_sorted i)
  constructor
  · intro hle
    by_contra hgt
    exact absurd (hlt b a hb ha (by omega)) (not_lt.2 hle)
  · intro hle
    rcases hle.eq_or_lt with rfl | h
    · exact le_rfl
    · exact (hlt a b ha hb h).le

theorem fromScore_anti (i : SearchInput) (p : Row → Bool) {t t' : ℚ} (h : t ≤ t') : fromScore i p t' ≤ fromScore i p t := by
  refine List.countP_mono_left fun row _ hrow => ?_
  exact decide_eq_true (h.trans (of_decide_eq_true hrow))

/-- how many elements of a list have an index in a range -/
theorem countP_range {α : Type} {p : α → Bool} {xs : List α} (hb : b ≤ xs.length)
    (h : ∀ k (hk : k < xs.length), p xs[k] = true ↔ a ≤ k ∧ k < b) : xs.countP p = b - a := by
  induction xs generalizing a b with
  | nil => simp_all
  | cons x xs ih =>
    have hfirst := h 0 (Nat.succ_pos _)
    have hrest : xs.countP p = (b - 1) - (a - 1) := by
      refine ih (by simp only [List.length_cons] at hb; omega) fun k hk => ?_
      have hk' := h (k + 1) (by simpa using hk)
      rw [List.getElem_cons_succ] at hk'
      rw [hk']
      omega
    rw [List.countP_cons, hrest]
    rw [List.getElem_cons_zero] at hfirst
    split_ifs with hx
    · have := hfirst.1 hx
      omega
    · have : ¬(a ≤ 0 ∧ 0 < b) := fun hr => hx (hfirst.2 hr)
      omega

/-! ## Rates -/

theorem falseDeclineRate_eq (hi : i.Valid) (challenge : ℚ) (hk : k < i.candidates.length) :
    i.falseDeclineRate k = Replay.falseDeclineRate i challenge i.candidates[k] := by
  obtain ⟨hcounts, hmandatory, -⟩ := statistics_eq hi
  rw [SearchInput.falseDeclineRate, Replay.falseDeclineRate, falseDeclines_eq hi, hmandatory, (hcounts k hk).2.1]
  push_cast
  rfl

theorem falseDeclineRate_anti (hi : i.Valid) (hab : a ≤ b) (hb : b < i.candidates.length) :
    i.falseDeclineRate b ≤ i.falseDeclineRate a := by
  have ha : a < i.candidates.length := by omega
  obtain ⟨hcounts, -, -⟩ := statistics_eq hi
  unfold SearchInput.falseDeclineRate
  rw [(hcounts a ha).2.1, (hcounts b hb).2.1]
  have hanti := fromScore_anti i (fun row => isFree row && !row.2.1) ((candidate_le_iff ha hb).2 hab)
  have hcast : (fromScore i (fun row => isFree row && !row.2.1) i.candidates[b] : ℚ) ≤
      fromScore i (fun row => isFree row && !row.2.1) i.candidates[a] := by exact_mod_cast hanti
  exact div_le_div_of_nonneg_right (by linarith) (Nat.cast_nonneg _)

/-- the decline thresholds that the false declines allow are those from an index on -/
theorem falseDeclineRate_le_iff (hi : i.Valid) (challenge : ℚ) (hk : k < i.candidates.length) :
    Replay.falseDeclineRate i challenge i.candidates[k] ≤ i.budget.falseDeclineRateMax ↔ i.firstFalseDeclineFeasible ≤ k := by
  rw [← falseDeclineRate_eq hi challenge hk]
  unfold SearchInput.firstFalseDeclineFeasible
  set p : ℕ → Bool := fun index => i.falseDeclineRate index ≤ i.budget.falseDeclineRateMax
  set indices := List.range i.candidates.length
  have hlength : indices.length = i.candidates.length := List.length_range
  constructor
  · intro hle
    by_contra hlt
    have hbefore : k < indices.findIdx p := by omega
    have hno := List.not_of_lt_findIdx hbefore
    rw [List.getElem_range] at hno
    exact absurd (decide_eq_true hle) (by simpa [p] using hno)
  · intro hfirst
    have hfound : indices.findIdx p < indices.length := by omega
    have hp : p (indices[indices.findIdx p]) = true := List.findIdx_getElem
    rw [List.getElem_range] at hp
    exact (falseDeclineRate_anti hi hfirst hk).trans (of_decide_eq_true hp)

theorem challengeRate_eq (hi : i.Valid) (ha : a < i.candidates.length) (hb : b < i.candidates.length) (hab : a ≤ b) :
    ((i.statistics.nonmandatoryGe.getD a 0 : ℚ) - i.statistics.nonmandatoryGe.getD b 0) / i.rowCount =
      Replay.challengeRate i i.candidates[a] i.candidates[b] := by
  obtain ⟨hcounts, -, -⟩ := statistics_eq hi
  rw [(hcounts a ha).1, (hcounts b hb).1, challenges_eq hi ((candidate_le_iff ha hb).2 hab), Replay.challengeRate]
  push_cast
  rw [add_sub_cancel_right]

theorem rowCount_pos (hi : i.Valid) : 0 < i.rowCount := by
  have hle : i.legitimateCount ≤ i.labels.length := List.count_le_length
  have hpos := hi.legitimate
  have hlabels := hi.labels
  unfold SearchInput.rowCount
  omega

/-- the last decline threshold of a challenge threshold -/
def lastDecline (i : SearchInput) (a : ℕ) : ℕ :=
  lastChallengeFeasibleDecline i.statistics.nonmandatoryGe a i.rowCount i.budget.challengeRateMax

/-- the decline thresholds that the challenges allow are those up to an index -/
theorem challengeRate_le_iff (hi : i.Valid) (ha : a < i.candidates.length) :
    (a ≤ lastDecline i a ∧ lastDecline i a < i.candidates.length) ∧
    ∀ k (hk : k < i.candidates.length), a ≤ k →
      (Replay.challengeRate i i.candidates[a] i.candidates[k] ≤ i.budget.challengeRateMax ↔ k ≤ lastDecline i a) := by
  have hlength : i.statistics.nonmandatoryGe.length = i.candidates.length := Bisection.length_suffixSums _ _
  have hrows : (0 : ℚ) < i.rowCount := by exact_mod_cast rowCount_pos hi
  obtain ⟨hcounts, -, -⟩ := statistics_eq hi
  unfold lastDecline lastChallengeFeasibleDecline
  set p : ℕ → Bool := fun middle =>
    ((i.statistics.nonmandatoryGe.getD a 0 : ℚ) - i.statistics.nonmandatoryGe.getD middle 0) / i.rowCount ≤
      i.budget.challengeRateMax with hpdef
  have hself : p a = true := by
    rw [hpdef]
    simpa using i.budget.challenge.1
  have hdown : ∀ j k, a ≤ j → j ≤ k → k < i.candidates.length → p k = true → p j = true := by
    intro j k _ hjk hk hpk
    refine decide_eq_true (le_trans ?_ (of_decide_eq_true hpk))
    have hj : j < i.candidates.length := by omega
    have hanti := fromScore_anti i isFree ((candidate_le_iff hj hk).2 hjk)
    have hcast : (fromScore i isFree i.candidates[k] : ℚ) ≤ fromScore i isFree i.candidates[j] := by exact_mod_cast hanti
    rw [(hcounts j hj).1, (hcounts k hk).1]
    exact div_le_div_of_nonneg_right (by linarith) hrows.le
  obtain ⟨hrange, hspec⟩ := Bisection.lastTrue_spec hdown le_rfl ha hself (Nat.le_succ a) le_rfl hlength.le
    (fun k hk hk' => absurd hk' (by omega))
  refine ⟨hrange, fun k hk hak => ?_⟩
  rw [← hspec k hak hk, ← challengeRate_eq hi ha hk hak]
  exact decide_eq_true_iff.symm

/-! ## The review counter -/

/-- a counter whose answer depends on the mask of the interventions only, and counts no more cases than these -/
structure ReviewCounter.Lawful (counter : ReviewCounter) : Prop where
  deterministic : ∀ call actions, counter call actions = counter 0 actions
  maskInvariant : ∀ actions actions', interventionMask actions = interventionMask actions' → counter 0 actions = counter 0 actions'
  bounded : ∀ actions, ∃ count, counter 0 actions = some count ∧ 0 ≤ count ∧ count ≤ (interventionMask actions).count true

theorem callReviewCaseCounter_ok {counter : ReviewCounter} (h : counter.Lawful) (call : ℕ) (actions : List Action) :
    callReviewCaseCounter counter call actions = .ok ((counter 0 actions).getD 0) := by
  obtain ⟨count, hcount, hrange⟩ := h.bounded actions
  unfold callReviewCaseCounter
  dsimp only
  rw [h.deterministic call, hcount]
  dsimp only
  rw [decide_eq_true hrange]
  rfl

variable {challenge decline decline' : ℚ}

/-- which rows are acted on depends on the challenge threshold only -/
theorem interventionMask_actions (i : SearchInput) (hle : challenge ≤ decline) (hle' : challenge ≤ decline') :
    interventionMask (Replay.actions i challenge decline) = interventionMask (Replay.actions i challenge decline') := by
  unfold interventionMask Replay.actions applyActions
  rw [List.map_zipWith, List.map_zipWith]
  congr 1
  funext score action
  rw [decide_eq_decide, ne_eq, ne_eq, actionOf_eq_approve hle, actionOf_eq_approve hle']

theorem reviewCases_eq (hcounter : i.counter.Lawful) (hle : challenge ≤ decline) (hle' : challenge ≤ decline') :
    Replay.reviewCases i challenge decline = Replay.reviewCases i challenge decline' := by
  unfold Replay.reviewCases
  rw [hcounter.maskInvariant _ _ (interventionMask_actions i hle hle')]

theorem count_interventionMask (hi : i.Valid) (challenge decline : ℚ) :
    (interventionMask (Replay.actions i challenge decline)).count true = Replay.interventions i challenge decline := by
  have hlength : (Replay.actions i challenge decline).length ≤ i.labels.length := by
    unfold Replay.actions applyActions
    rw [List.length_zipWith, hi.labels]
    exact Nat.min_le_left _ _
  have hactions := List.map_snd_zip hlength
  unfold Replay.interventions Replay.count
  rw [interventionMask, List.count, List.countP_map, ← hactions, List.countP_map, hactions]
  refine List.countP_congr fun row _ => ?_
  simp

theorem reviewCases_bounds (hi : i.Valid) (hcounter : i.counter.Lawful) (challenge decline : ℚ) :
    0 ≤ Replay.reviewCases i challenge decline ∧ Replay.reviewCases i challenge decline ≤ Replay.interventions i challenge decline := by
  obtain ⟨count, hcount, hrange⟩ := hcounter.bounded (Replay.actions i challenge decline)
  rw [Replay.reviewCases, hcount, ← count_interventionMask hi]
  exact hrange

/-- the cache has what the counter says of every mask in it -/
def CacheSound (i : SearchInput) (cache : Dict (List Bool) ℤ) : Prop :=
  ∀ mask count, cache.get? mask = some count → ∀ actions, interventionMask actions = mask → i.counter 0 actions = some count

theorem reviewCasesForChallenge_ok (hcounter : i.counter.Lawful) (hone : challenge ≤ 1) {reviews : Reviews}
    (hcache : CacheSound i reviews.cache) :
    ∃ reviews', reviewCasesForChallenge i.counter i.scores i.mandatory challenge reviews =
      .ok (Replay.reviewCases i challenge challenge, reviews') ∧ CacheSound i reviews'.cache := by
  have hmask := interventionMask_actions i (le_refl challenge) hone
  unfold reviewCasesForChallenge
  dsimp only
  cases hget : reviews.cache.get? (interventionMask (applyActions i.scores i.mandatory challenge challenge)) with
  | some count =>
    have hcount := hcache _ count hget _ rfl
    refine ⟨reviews, ?_, hcache⟩
    unfold Replay.reviewCases Replay.actions
    rw [hcount]
    rfl
  | none =>
    refine ⟨⟨reviews.calls + 3, reviews.cache.set (interventionMask (applyActions i.scores i.mandatory challenge challenge))
      (Replay.reviewCases i challenge challenge)⟩, ?_, ?_⟩
    · have hsame : ((i.counter 0 (applyActions i.scores i.mandatory challenge 1)).getD 0) =
          Replay.reviewCases i challenge challenge := reviewCases_eq hcounter hone le_rfl
      have hfirst : ((i.counter 0 (applyActions i.scores i.mandatory challenge challenge)).getD 0) =
          Replay.reviewCases i challenge challenge := rfl
      have hmasks : interventionMask (applyActions i.scores i.mandatory challenge challenge) =
          interventionMask (applyActions i.scores i.mandatory challenge 1) := hmask
      dsimp only
      rw [callReviewCaseCounter_ok hcounter, callReviewCaseCounter_ok hcounter, callReviewCaseCounter_ok hcounter, hfirst, hsame,
        decide_eq_true hmasks]
      simp only [except_ok_bind, check, decide_true, if_true]
      rfl
    · intro mask count hset actions hactions
      rw [Dict.get?_set] at hset
      split_ifs at hset with heq
      · cases hset
        obtain ⟨count, hcount, -⟩ := hcounter.bounded (applyActions i.scores i.mandatory challenge challenge)
        rw [hcounter.maskInvariant actions _ (hactions.trans heq), Replay.reviewCases, Replay.actions, hcount]
        rfl
      · exact hcache mask count hset actions hactions

/-! ## Candidates -/

namespace Replay

/-- the candidate of a pair, recounted -/
def candidate (i : SearchInput) (challenge decline objective : ℚ) : Candidate where
  ranking := toLex (objective, toLex (-(falseInterventions i challenge decline : ℤ), toLex (decline, challenge)))
  challenge := challenge
  decline := decline
  falseDeclineRate := falseDeclineRate i challenge decline
  challengeRate := challengeRate i challenge decline
  reviewRate := reviewRate i challenge decline
  falseInterventions := falseInterventions i challenge decline
  interventionCount := interventions i challenge decline
  reviewCases := reviewCases i challenge decline

end Replay

/-- what a value that no float holds raises -/
def overflowed : ThresholdError := .contract "captured fraud value aggregate must remain finite"

theorem captured_eq (hi : i.Valid) (challenge decline : ℚ) (values : List ℚ) :
    (((i.labels.zip (Replay.actions i challenge decline)).zip values).filter fun row => row.1.1 && row.1.2 ≠ .approve).map Prod.snd =
      ((i.rows.zip values).filter fun row =>
        row.1.2.1 && actionOf challenge decline row.1.1 row.1.2.2 ≠ .approve).map Prod.snd := by
  rw [Replay.actions, zip_applyActions challenge decline hi.labels hi.mandatory, List.zip_map_left, List.filter_map, List.map_map]
  rfl

theorem objective_eq (hi : i.Valid) (hle : challenge ≤ decline) (hle' : challenge ≤ decline') :
    Replay.objective i challenge decline = Replay.objective i challenge decline' := by
  have hmask := interventionMask_actions i hle hle'
  unfold Replay.objective
  cases i.values with
  | none =>
    dsimp only
    rw [fraudInterventions_eq hi hle, fraudInterventions_eq hi hle']
  | some values =>
    dsimp only
    rw [captured_eq hi, captured_eq hi]
    simp only [ne_eq, actionOf_eq_approve hle, actionOf_eq_approve hle']

theorem objectiveAt_eq (hi : i.Valid) (ha : a < i.candidates.length) (hle : i.candidates[a] ≤ decline) :
    objectiveAt i a i.candidates[a] = (Replay.objective i i.candidates[a] decline).elim (.error overflowed) .ok := by
  obtain ⟨hcounts, -, hmandatory⟩ := statistics_eq hi
  unfold objectiveAt Replay.objective
  cases i.values with
  | none =>
    dsimp only
    rw [(hcounts a ha).2.2, hmandatory, fraudInterventions_eq hi hle]
    push_cast
    rfl
  | some values =>
    dsimp only
    rw [captured_eq hi, capturedFraudValue]
    dsimp only
    have hrows : rowsOf i.scores i.labels i.mandatory = i.rows := rfl
    rw [hrows, List.filter_congr (q := fun row => row.1.2.1 && actionOf i.candidates[a] decline row.1.1 row.1.2.2 ≠
      .approve)]
    · generalize fsum _ = total
      cases total with
      | some _ => rfl
      | none => rfl
    · intro row _
      simp only [ne_eq, actionOf_eq_approve hle]
      by_cases hfree : row.1.2.2 = .decline
      · simp [hfree]
      · simp [hfree]

/-- the candidate of the search is the one recounted -/
theorem candidateAt_eq (hi : i.Valid) (ha : a < i.candidates.length) (hb : b < i.candidates.length) (hab : a ≤ b) :
    candidateAt i a b i.candidates[a] (Replay.reviewCases i i.candidates[a] i.candidates[b]) =
      (Replay.objective i i.candidates[a] i.candidates[b]).elim (.error overflowed) fun objective =>
        .ok (Replay.candidate i i.candidates[a] i.candidates[b] objective) := by
  have hle := (candidate_le_iff ha hb).2 hab
  obtain ⟨hcounts, hmandatoryLegitimate, hmandatoryFraud⟩ := statistics_eq hi
  have hdecline : i.candidates.getD b 0 = i.candidates[b] := by
    rw [List.getD_eq_getElem?_getD, List.getElem?_eq_getElem hb]
    rfl
  have hfalse : (i.statistics.mandatoryLegitimate : ℤ) + i.statistics.legitimateGe.getD a 0 =
      Replay.falseInterventions i i.candidates[a] i.candidates[b] := by
    rw [falseInterventions_eq hi hle, (hcounts a ha).2.1, hmandatoryLegitimate]
    push_cast
    rfl
  have hall : (Replay.falseInterventions i i.candidates[a] i.candidates[b] : ℤ) + i.statistics.mandatoryFraud +
      i.statistics.fraudGe.getD a 0 = Replay.interventions i i.candidates[a] i.candidates[b] := by
    rw [interventions_eq hi, fraudInterventions_eq hi hle, (hcounts a ha).2.2, hmandatoryFraud]
    push_cast
    ring
  unfold candidateAt
  dsimp only
  rw [objectiveAt_eq hi ha hle, hdecline, hfalse, hall, challengeRate_eq hi ha hb hab,
    falseDeclineRate_eq hi i.candidates[a] hb]
  cases Replay.objective i i.candidates[a] i.candidates[b] with
  | some objective => rfl
  | none => rfl

/-! ## A challenge threshold -/

theorem feasible_iff (hi : i.Valid) (hcounter : i.counter.Lawful) (ha : a < i.candidates.length)
    (hk : k < i.candidates.length) :
    Replay.Feasible i i.candidates[a] i.candidates[k] ↔
      Replay.reviewRate i i.candidates[a] i.candidates[a] ≤ i.budget.reviewCaseRateMax ∧
        max a i.firstFalseDeclineFeasible ≤ k ∧ k ≤ lastDecline i a := by
  obtain ⟨-, hchallenge⟩ := challengeRate_le_iff hi ha
  unfold Replay.Feasible
  rw [candidate_le_iff ha hk, falseDeclineRate_le_iff hi _ hk, max_le_iff]
  constructor
  · rintro ⟨hak, hfirst, hlast, hreview⟩
    have hle := (candidate_le_iff ha hk).2 hak
    refine ⟨?_, ⟨hak, hfirst⟩, (hchallenge k hk hak).1 hlast⟩
    rwa [Replay.reviewRate, reviewCases_eq hcounter le_rfl hle]
  · rintro ⟨hreview, ⟨hak, hfirst⟩, hlast⟩
    have hle := (candidate_le_iff ha hk).2 hak
    refine ⟨hak, hfirst, (hchallenge k hk hak).2 hlast, ?_⟩
    rwa [Replay.reviewRate, reviewCases_eq hcounter hle le_rfl]

/-- the decline thresholds that are feasible with a challenge threshold -/
def feasibleDeclines (i : SearchInput) (challenge : ℚ) : ℕ := i.candidates.countP fun decline => Replay.Feasible i challenge decline

theorem feasibleDeclines_eq (hi : i.Valid) (hcounter : i.counter.Lawful) (ha : a < i.candidates.length)
    (hreview : Replay.reviewRate i i.candidates[a] i.candidates[a] ≤ i.budget.reviewCaseRateMax) :
    feasibleDeclines i i.candidates[a] = lastDecline i a + 1 - max a i.firstFalseDeclineFeasible := by
  obtain ⟨⟨-, hlast⟩, -⟩ := challengeRate_le_iff hi ha
  refine countP_range (Nat.succ_le_of_lt hlast) fun k hk => ?_
  rw [decide_eq_true_iff, feasible_iff hi hcounter ha hk, Nat.lt_succ_iff]
  exact and_iff_right hreview

theorem exists_of_mem_candidates {t : ℚ} (h : t ∈ i.candidates) : ∃ (k : ℕ) (hk : k < i.candidates.length), i.candidates[k] = t :=
  List.mem_iff_getElem.1 h

/-! ## The loop -/

/-- what the loop has found, of the challenge thresholds so far -/
structure Found (i : SearchInput) (done : List (ℚ × ℕ)) (s : SearchState) : Prop where
  count : s.feasibleCount = (done.map fun entry => feasibleDeclines i entry.1).sum
  minimumLe : s.minimumReview ≤ 1
  minimum : ∀ entry ∈ done, s.minimumReview ≤ Replay.reviewRate i entry.1 entry.1
  attained : s.minimumReview = 1 ∨ ∃ entry ∈ done, s.minimumReview = Replay.reviewRate i entry.1 entry.1
  best : ∀ entry ∈ done, ∀ decline ∈ i.candidates, Replay.Feasible i entry.1 decline →
    ∃ objective selected, Replay.objective i entry.1 decline = some objective ∧ s.selected = some selected ∧
      (Replay.candidate i entry.1 decline objective).ranking ≤ selected.ranking
  chosen : ∀ selected, s.selected = some selected → ∃ entry ∈ done, ∃ decline ∈ i.candidates, ∃ objective,
    Replay.Feasible i entry.1 decline ∧ Replay.objective i entry.1 decline = some objective ∧
      selected = Replay.candidate i entry.1 decline objective
  cache : CacheSound i s.reviews.cache

/-- a feasible pair whose captured value has no float -/
def Overflows (i : SearchInput) (e : ThresholdError) : Prop :=
  e = overflowed ∧ ∃ challenge ∈ i.candidates, ∃ decline ∈ i.candidates,
    Replay.Feasible i challenge decline ∧ Replay.objective i challenge decline = none

/-- of two pairs with one challenge threshold, the one with the larger decline threshold is better -/
theorem ranking_le (hi : i.Valid) {objective : ℚ} (hle : challenge ≤ decline) (hle' : decline ≤ decline') :
    (Replay.candidate i challenge decline objective).ranking ≤ (Replay.candidate i challenge decline' objective).ranking := by
  have hfalse : Replay.falseInterventions i challenge decline = Replay.falseInterventions i challenge decline' := by
    rw [falseInterventions_eq hi hle, falseInterventions_eq hi (hle.trans hle')]
  unfold Replay.candidate
  dsimp only
  rw [hfalse]
  refine Prod.Lex.toLex_mono (Prod.mk_le_mk.2 ⟨le_rfl, Prod.Lex.toLex_mono (Prod.mk_le_mk.2 ⟨le_rfl, ?_⟩)⟩)
  exact Prod.Lex.toLex_mono (Prod.mk_le_mk.2 ⟨hle', le_rfl⟩)

/-- what a turn keeps, whatever it counts and selects -/
theorem Found.turn {done : List (ℚ × ℕ)} {s : SearchState} (h : Found i done s) {entry : ℚ × ℕ} {count : ℕ}
    {selected' : Option Candidate} {reviews : Reviews} (hcache : CacheSound i reviews.cache)
    (hcount : count = s.feasibleCount + feasibleDeclines i entry.1)
    (hkept : ∀ selected, s.selected = some selected → ∃ best, selected' = some best ∧ selected.ranking ≤ best.ranking)
    (hbest : ∀ decline ∈ i.candidates, Replay.Feasible i entry.1 decline →
      ∃ objective best, Replay.objective i entry.1 decline = some objective ∧ selected' = some best ∧
        (Replay.candidate i entry.1 decline objective).ranking ≤ best.ranking)
    (hchosen : ∀ best, selected' = some best → s.selected = some best ∨ ∃ decline ∈ i.candidates, ∃ objective,
      Replay.Feasible i entry.1 decline ∧ Replay.objective i entry.1 decline = some objective ∧
        best = Replay.candidate i entry.1 decline objective) :
    Found i (done ++ [entry])
      ⟨count, min s.minimumReview (Replay.reviewRate i entry.1 entry.1), selected', reviews⟩ where
  count := by simp [hcount, h.count]
  minimumLe := (min_le_left _ _).trans h.minimumLe
  minimum := by
    intro entry' hentry'
    rcases List.mem_append.1 hentry' with hentry' | hentry'
    · exact (min_le_left _ _).trans (h.minimum entry' hentry')
    · rw [List.mem_singleton.1 hentry']
      exact min_le_right _ _
  attained := by
    rcases min_choice s.minimumReview (Replay.reviewRate i entry.1 entry.1) with hmin | hmin
    · rcases h.attained with hone | ⟨entry', hentry', heq⟩
      · exact .inl (hmin.trans hone)
      · exact .inr ⟨entry', List.mem_append_left _ hentry', hmin.trans heq⟩
    · exact .inr ⟨entry, by simp, hmin⟩
  best := by
    intro entry' hentry' decline hdecline hfeasible
    rcases List.mem_append.1 hentry' with hentry' | hentry'
    · obtain ⟨objective, selected, hobjective, hselected, hle⟩ := h.best entry' hentry' decline hdecline hfeasible
      obtain ⟨best, hbest, hle'⟩ := hkept selected hselected
      exact ⟨objective, best, hobjective, hbest, hle.trans hle'⟩
    · rw [List.mem_singleton.1 hentry'] at hfeasible ⊢
      exact hbest decline hdecline hfeasible
  chosen := by
    intro best hselected
    rcases hchosen best hselected with hold | hnew
    · obtain ⟨entry', hentry', hrest⟩ := h.chosen best hold
      exact ⟨entry', List.mem_append_left _ hentry', hrest⟩
    · exact ⟨entry, by simp, hnew⟩
  cache := hcache

theorem Found.skip {done : List (ℚ × ℕ)} {s : SearchState} (h : Found i done s) {entry : ℚ × ℕ} {reviews : Reviews}
    (hcache : CacheSound i reviews.cache) (hnone : ∀ decline ∈ i.candidates, ¬Replay.Feasible i entry.1 decline) :
    Found i (done ++ [entry])
      ⟨s.feasibleCount, min s.minimumReview (Replay.reviewRate i entry.1 entry.1), s.selected, reviews⟩ := by
  have hzero : feasibleDeclines i entry.1 = 0 := by
    rw [feasibleDeclines, List.countP_eq_zero]
    intro decline hdecline
    simpa using hnone decline hdecline
  refine h.turn hcache (by rw [hzero, Nat.add_zero]) (fun selected hselected => ⟨selected, hselected, le_rfl⟩) ?_ fun best => .inl
  intro decline hdecline hfeasible
  exact absurd hfeasible (hnone decline hdecline)

/-- **A turn of the loop** keeps what is found, or meets a captured value that has no float. -/
theorem searchStep_found (hi : i.Valid) (hcounter : i.counter.Lawful) {done : List (ℚ × ℕ)} {s : SearchState}
    (h : Found i done s) (ha : a < i.candidates.length) :
    (∃ s', searchStep i s (i.candidates[a], a) = .ok s' ∧ Found i (done ++ [(i.candidates[a], a)]) s') ∨
      ∃ e, searchStep i s (i.candidates[a], a) = .error e ∧ Overflows i e := by
  have hone : i.candidates[a] ≤ 1 := by
    rcases mem_candidates.1 (List.getElem_mem ha) with hzero | hone | hmem
    · rw [hzero]
      exact zero_le_one
    · exact hone.le
    · exact (hi.scores _ hmem).2.le
  obtain ⟨⟨hlastGe, hlastLt⟩, -⟩ := challengeRate_le_iff hi ha
  obtain ⟨reviews, hreviews, hcache⟩ := reviewCasesForChallenge_ok hcounter hone h.cache
  have hrate : (Replay.reviewCases i i.candidates[a] i.candidates[a] : ℚ) / i.rowCount =
      Replay.reviewRate i i.candidates[a] i.candidates[a] := rfl
  unfold searchStep
  dsimp only
  rw [hreviews, except_ok_bind]
  dsimp only
  rw [hrate, show lastChallengeFeasibleDecline i.statistics.nonmandatoryGe a i.rowCount i.budget.challengeRateMax =
    lastDecline i a from rfl]
  by_cases hreview : i.budget.reviewCaseRateMax < Replay.reviewRate i i.candidates[a] i.candidates[a]
  · -- too many review cases, whatever the decline threshold
    rw [if_pos hreview]
    refine .inl ⟨_, rfl, h.skip hcache ?_⟩
    intro decline hdecline hfeasible
    obtain ⟨k, hk, rfl⟩ := exists_of_mem_candidates hdecline
    exact absurd ((feasible_iff hi hcounter ha hk).1 hfeasible).1 (not_le.2 hreview)
  rw [if_neg hreview]
  by_cases hempty : lastDecline i a < max a i.firstFalseDeclineFeasible
  · -- the two bounds of the decline thresholds cross
    rw [if_pos hempty]
    refine .inl ⟨_, rfl, h.skip hcache ?_⟩
    intro decline hdecline hfeasible
    obtain ⟨k, hk, rfl⟩ := exists_of_mem_candidates hdecline
    have hrange := ((feasible_iff hi hcounter ha hk).1 hfeasible).2
    exact absurd (hrange.1.trans hrange.2) (not_le.2 hempty)
  rw [if_neg hempty]
  have hle := (candidate_le_iff ha hlastLt).2 hlastGe
  have hfeasible : Replay.Feasible i i.candidates[a] i.candidates[lastDecline i a] :=
    (feasible_iff hi hcounter ha hlastLt).2 ⟨not_lt.1 hreview, not_lt.1 hempty, le_rfl⟩
  rw [reviewCases_eq hcounter le_rfl hle, candidateAt_eq hi ha hlastLt hlastGe]
  cases hobjective : Replay.objective i i.candidates[a] i.candidates[lastDecline i a] with
  | none =>
    exact .inr ⟨overflowed, rfl, rfl, _, List.getElem_mem ha, _, List.getElem_mem hlastLt, hfeasible, hobjective⟩
  | some objective =>
    refine .inl ⟨_, rfl, h.turn hcache ?_ ?_ ?_ ?_⟩
    · rw [feasibleDeclines_eq hi hcounter ha (not_lt.1 hreview)]
      omega
    · intro selected hselected
      rw [hselected]
      by_cases hbetter : selected.ranking < (Replay.candidate i i.candidates[a] i.candidates[lastDecline i a] objective).ranking
      · exact ⟨_, if_pos (decide_eq_true hbetter), hbetter.le⟩
      · exact ⟨selected, if_neg (by simpa using hbetter), le_rfl⟩
    · -- the last decline threshold is the best of them
      intro decline hdecline hpair
      obtain ⟨k, hk, rfl⟩ := exists_of_mem_candidates hdecline
      obtain ⟨-, hfirst, hlast⟩ := (feasible_iff hi hcounter ha hk).1 hpair
      have hle' := (candidate_le_iff hk hlastLt).2 hlast
      have hbest : (Replay.candidate i i.candidates[a] i.candidates[k] objective).ranking ≤ _ := ranking_le hi hpair.1 hle'
      have hsame : Replay.objective i i.candidates[a] i.candidates[k] = some objective := (objective_eq hi hpair.1 hle).trans hobjective
      cases hselected : s.selected with
      | none => exact ⟨objective, _, hsame, if_pos rfl, hbest⟩
      | some selected =>
        by_cases hbetter : selected.ranking < (Replay.candidate i i.candidates[a] i.candidates[lastDecline i a] objective).ranking
        · exact ⟨objective, _, hsame, if_pos (decide_eq_true hbetter), hbest⟩
        · exact ⟨objective, selected, hsame, if_neg (by simpa using hbetter), hbest.trans (not_lt.1 hbetter)⟩
    · intro best hbest
      split_ifs at hbest with hbetter
      · exact .inr ⟨_, List.getElem_mem hlastLt, objective, hfeasible, hobjective, (Option.some.inj hbest).symm⟩
      · exact .inl hbest

/-- **The search** ends with what there is to find, or meets a captured value that has no float. -/
theorem search_found (hi : i.Valid) (hcounter : i.counter.Lawful) :
    (∃ s, search i = .ok s ∧ Found i i.candidates.zipIdx s) ∨ ∃ e, search i = .error e ∧ Overflows i e := by
  refine foldlM_outcome (I := Found i) (E := Overflows i) ?_ ?_
  · intro done entry rest s hdone hfound
    have hentry : i.candidates.zipIdx[done.length]? = some entry := by
      rw [hdone, List.getElem?_append_right le_rfl, Nat.sub_self]
      rfl
    rw [List.getElem?_zipIdx] at hentry
    obtain ⟨c, hc, rfl⟩ := Option.map_eq_some_iff.1 hentry
    obtain ⟨ha, rfl⟩ := List.getElem?_eq_some_iff.1 hc
    have hturn := searchStep_found hi hcounter hfound ha
    rw [Nat.zero_add]
    exact hturn
  · refine { count := rfl, minimumLe := le_rfl, minimum := ?_, attained := .inl rfl, best := ?_, chosen := ?_, cache := ?_ }
    · intro entry hentry
      cases hentry
    · intro entry hentry
      cases hentry
    · intro selected hselected
      cases hselected
    · intro mask count hget
      cases hget

end Thresholds

end Apar
