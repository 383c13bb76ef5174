/-
The selected thresholds (`defense/thresholds.py`) are optimal: the report of an accepted input counts the pairs that keep the
budget, tells the best of them, and what it tells is what a recount of the replayed actions gives.

- `report_ok`: the report of what the search has found passes its own validation.
- `selectPolicyThresholds_optimal`: the selection of every accepted input, for a counter that depends on the interventions only.
-/
import Mathlib.Data.Bool.Count
import Mathlib.Data.List.ProdSigma
import Apar.Defense.ThresholdSearch

namespace Apar

open Exec

namespace Thresholds

variable {i : SearchInput} {challenge decline : ℚ}

/-! ## Bounds of the recount -/

theorem count_le_rowCount (hi : i.Valid) (p : Bool → Action → Bool) (challenge decline : ℚ) :
    Replay.count i p challenge decline ≤ i.rowCount := by
  rw [count_eq hi]
  refine List.countP_le_length.trans ?_
  have hlength := congrArg List.length (map_fst_rowsOf hi.labels hi.mandatory)
  rw [List.length_map] at hlength
  exact hlength.le

/-- rows of one label are no more than there are -/
theorem count_le_label (hi : i.Valid) {p : Bool → Action → Bool} {label : Bool} (hp : ∀ l a, p l a = true → l = label)
    (challenge decline : ℚ) : Replay.count i p challenge decline ≤ i.labels.count label := by
  have hlength : i.labels.length ≤ (Replay.actions i challenge decline).length := by
    unfold Replay.actions applyActions
    rw [List.length_zipWith, hi.labels, hi.mandatory, Nat.min_self]
  have hlabels := List.map_fst_zip hlength
  calc Replay.count i p challenge decline
      ≤ (i.labels.zip (Replay.actions i challenge decline)).countP fun row => row.1 == label :=
        List.countP_mono_left fun row _ hrow => by simpa using hp row.1 row.2 hrow
    _ = ((i.labels.zip (Replay.actions i challenge decline)).map Prod.fst).count label := by
        rw [List.count, List.countP_map]
        rfl
    _ = i.labels.count label := by rw [hlabels]

theorem count_mono {p q : Bool → Action → Bool} (h : ∀ l a, p l a = true → q l a = true) (challenge decline : ℚ) :
    Replay.count i p challenge decline ≤ Replay.count i q challenge decline :=
  List.countP_mono_left fun row _ => h row.1 row.2

theorem falseDeclines_le (hi : i.Valid) (challenge decline : ℚ) :
    Replay.falseDeclines i challenge decline ≤ i.legitimateCount := by
  refine count_le_label hi (fun l a h => ?_) challenge decline
  simp_all

theorem falseInterventions_le (hi : i.Valid) (challenge decline : ℚ) :
    Replay.falseInterventions i challenge decline ≤ i.legitimateCount := by
  refine count_le_label hi (fun l a h => ?_) challenge decline
  simp_all

theorem fraudInterventions_le (hi : i.Valid) (challenge decline : ℚ) :
    Replay.fraudInterventions i challenge decline ≤ i.fraudCount := by
  refine count_le_label hi (fun l a h => ?_) challenge decline
  simp_all

theorem falseDeclines_le_interventions (challenge decline : ℚ) :
    Replay.falseDeclines i challenge decline ≤ Replay.falseInterventions i challenge decline := by
  refine count_mono (fun l a h => ?_) challenge decline
  simp_all

theorem challenges_le_interventions (challenge decline : ℚ) :
    Replay.challenges i challenge decline ≤ Replay.interventions i challenge decline := by
  refine count_mono (fun l a h => ?_) challenge decline
  simp_all

theorem challenges_self (hi : i.Valid) (challenge : ℚ) : Replay.challenges i challenge challenge = 0 := by
  have := challenges_eq hi (le_refl challenge)
  omega

/-- a count over its total -/
def IsShare (x : ℚ) (count : ℤ) (total : ℕ) : Prop := x = count / total ∧ 0 ≤ count ∧ count ≤ total

variable {x objective c d : ℚ} {r : ThresholdReport}

theorem IsShare.unit {count : ℤ} {total : ℕ} (h : IsShare x count total) : 0 ≤ x ∧ x ≤ 1 := by
  obtain ⟨rfl, hnonneg, hle⟩ := h
  have hcount : (0 : ℚ) ≤ count := by exact_mod_cast hnonneg
  have hcast : (count : ℚ) ≤ total := by exact_mod_cast hle
  exact ⟨by positivity, div_le_one_of_le₀ hcast (by positivity)⟩

theorem IsShare.integralCount {x : ℚ} {count : ℤ} {total : ℕ} (h : IsShare x count total) (htotal : 0 < total) :
    integralCount x total = .ok count := by
  obtain ⟨rfl, hnonneg, hle⟩ := h
  have hne : (total : ℚ) ≠ 0 := by positivity
  unfold Thresholds.integralCount
  rw [div_mul_cancel₀ _ hne, Decimal.halfEven_intCast]
  dsimp only
  rw [decide_eq_true ⟨hnonneg, hle⟩, decide_eq_true rfl]
  rfl

theorem falseDeclineRate_share (hi : i.Valid) (challenge decline : ℚ) :
    IsShare (Replay.falseDeclineRate i challenge decline) (Replay.falseDeclines i challenge decline) i.legitimateCount :=
  ⟨rfl, Int.natCast_nonneg _, Int.ofNat_le.2 (falseDeclines_le hi challenge decline)⟩

theorem challengeRate_share (hi : i.Valid) (challenge decline : ℚ) :
    IsShare (Replay.challengeRate i challenge decline) (Replay.challenges i challenge decline) i.rowCount :=
  ⟨rfl, Int.natCast_nonneg _, Int.ofNat_le.2 (count_le_rowCount hi _ challenge decline)⟩

theorem reviewRate_share (hi : i.Valid) (hcounter : i.counter.Lawful) (challenge decline : ℚ) :
    IsShare (Replay.reviewRate i challenge decline) (Replay.reviewCases i challenge decline) i.rowCount := by
  obtain ⟨hnonneg, hle⟩ := reviewCases_bounds hi hcounter challenge decline
  have hrows : (Replay.interventions i challenge decline : ℤ) ≤ i.rowCount :=
    Int.ofNat_le.2 (count_le_rowCount hi _ challenge decline)
  exact ⟨rfl, hnonneg, hle.trans hrows⟩

/-! ## Candidates -/

theorem candidates_unit (hi : i.Valid) {t : ℚ} (h : t ∈ i.candidates) : 0 ≤ t ∧ t ≤ 1 := by
  rcases mem_candidates.1 h with rfl | rfl | hmem
  · exact ⟨le_rfl, zero_le_one⟩
  · exact ⟨zero_le_one, le_rfl⟩
  · exact ⟨(hi.scores t hmem).1.le, (hi.scores t hmem).2.le⟩

/-- zero, one and some score between them -/
theorem length_candidates (hi : i.Valid) :
    3 ≤ i.candidates.length ∧ i.candidates.length ≤ maxUniqueOperatingScores + 2 := by
  constructor
  · have hrows := rowCount_pos hi
    obtain ⟨s, hs⟩ := List.exists_mem_of_length_pos hrows
    obtain ⟨hpos, hlt⟩ := hi.scores s hs
    have hnodup : [0, 1, s].Nodup := by simp [hpos.ne, hlt.ne']
    have hsub : [0, 1, s] ⊆ i.candidates := by
      intro t ht
      rw [mem_candidates]
      simp only [List.mem_cons, List.not_mem_nil, or_false] at ht
      rcases ht with rfl | rfl | rfl
      · exact .inl rfl
      · exact .inr (.inl rfl)
      · exact .inr (.inr hs)
    exact (List.subperm_of_subset hnodup hsub).length_le
  · have hlength : i.candidates.length = (0 :: 1 :: i.scores).toFinset.card := by
      rw [SearchInput.candidates, sortedSet, List.length_insertionSort, List.card_toFinset]
    rw [hlength, List.toFinset_cons, List.toFinset_cons]
    have hunique := hi.unique
    rw [← List.card_toFinset] at hunique
    have hone := Finset.card_insert_le 1 i.scores.toFinset
    have hzero := Finset.card_insert_le 0 (insert 1 i.scores.toFinset)
    omega

/-- all pairs of candidates -/
def pairs (i : SearchInput) : List (ℚ × ℚ) := i.candidates ×ˢ i.candidates

theorem countP_pairs (i : SearchInput) (p : ℚ → ℚ → Bool) :
    ((pairs i).countP fun pair => p pair.1 pair.2) = (i.candidates.map fun c => i.candidates.countP (p c)).sum := by
  have hproduct : pairs i = i.candidates.flatMap fun c => i.candidates.map (Prod.mk c) := rfl
  rw [hproduct, List.countP_flatMap]
  congr 1
  refine List.map_congr_left fun c _ => ?_
  rw [Function.comp, List.countP_map]
  rfl

/-- the pairs in order are triangular -/
theorem countP_ordered (i : SearchInput) :
    ((pairs i).countP fun pair => pair.1 ≤ pair.2) = i.candidates.length * (i.candidates.length + 1) / 2 := by
  rw [countP_pairs i fun c d => c ≤ d]
  have hfrom : i.candidates.map (fun c => i.candidates.countP fun d => c ≤ d) =
      (List.range i.candidates.length).map fun a => i.candidates.length - a := by
    refine List.ext_getElem (by simp) fun a ha _ => ?_
    rw [List.length_map] at ha
    rw [List.getElem_map, List.getElem_map, List.getElem_range]
    refine countP_range le_rfl fun k hk => ?_
    rw [decide_eq_true_iff, candidate_le_iff ha hk]
    exact (and_iff_left hk).symm
  have hgauss : ∀ n : ℕ, ((List.range n).map fun a => n - a).sum * 2 = n * (n + 1) := by
    intro n
    induction n with
    | zero => rfl
    | succ n ih =>
      rw [List.range_succ_eq_map, List.map_cons, List.sum_cons, List.map_map]
      have hshift : (List.range n).map ((fun a => n + 1 - a) ∘ Nat.succ) = (List.range n).map fun a => n - a :=
        List.map_congr_left fun a _ => by simp
      rw [hshift, Nat.sub_zero, add_mul, ih]
      ring
  rw [hfrom]
  have := hgauss i.candidates.length
  omega

/-! ## The report -/

theorem fsum_nonneg {xs : List ℚ} (hxs : ∀ x ∈ xs, 0 ≤ x) {total : ℚ} (h : fsum xs = some total) : 0 ≤ total := by
  unfold fsum at h
  dsimp only at h
  split_ifs at h
  cases h
  exact Binary64.nearest_nonneg (List.sum_nonneg hxs)

theorem objective_nonneg (hi : i.Valid) (h : Replay.objective i challenge decline = some objective) :
    0 ≤ objective := by
  unfold Replay.objective at h
  cases hvalues : i.values with
  | none =>
    rw [hvalues] at h
    cases h
    positivity
  | some values =>
    rw [hvalues] at h
    refine fsum_nonneg (fun x hx => ?_) h
    obtain ⟨row, hrow, rfl⟩ := List.mem_map.1 hx
    exact (hi.values values hvalues).2 _ (List.of_mem_zip (List.mem_of_mem_filter hrow)).2

/-- what the report of an input is, beside its metrics -/
structure Totals (i : SearchInput) (r : ThresholdReport) : Prop where
  budget : r.budget = i.budget
  fraudValue : r.fraudValue = i.values.isSome
  candidateThresholdCount : r.candidateThresholdCount = i.candidates.length
  candidateCount : r.candidateCount = (pairs i).countP fun pair => pair.1 ≤ pair.2
  feasibleCandidateCount : r.feasibleCandidateCount = (pairs i).countP fun pair => Replay.Feasible i pair.1 pair.2
  rowCount : r.rowCount = i.rowCount
  legitimateCount : r.legitimateCount = i.legitimateCount
  fraudCount : r.fraudCount = i.fraudCount
  minimumFalseDeclineRate : IsLeast {x | ∃ c ∈ i.candidates, ∃ d ∈ i.candidates, c ≤ d ∧ Replay.falseDeclineRate i c d = x}
    r.minimumFalseDeclineRate
  minimumChallengeRate : IsLeast {x | ∃ c ∈ i.candidates, ∃ d ∈ i.candidates, c ≤ d ∧ Replay.challengeRate i c d = x}
    r.minimumChallengeRate
  minimumReviewCaseRate : IsLeast {x | ∃ c ∈ i.candidates, ∃ d ∈ i.candidates, c ≤ d ∧ Replay.reviewRate i c d = x}
    r.minimumReviewCaseRate

/-- the metrics of a report are those of a pair -/
structure Realizes (i : SearchInput) (r : ThresholdReport) (challenge decline objective : ℚ) : Prop where
  thresholds : r.thresholds.map (fun t => (t.challenge, t.decline)) = some (challenge, decline)
  objectiveValue : r.objectiveValue = some objective
  falseDeclineRate : r.calibrationFalseDeclineRate = some (Replay.falseDeclineRate i challenge decline)
  challengeRate : r.calibrationChallengeRate = some (Replay.challengeRate i challenge decline)
  reviewCaseRate : r.calibrationReviewCaseRate = some (Replay.reviewRate i challenge decline)
  falseInterventionCount : r.falseInterventionCount = some (Replay.falseInterventions i challenge decline : ℤ)
  interventionCount : r.interventionCount = some (Replay.interventions i challenge decline : ℤ)
  reviewCaseCount : r.reviewCaseCount = some (Replay.reviewCases i challenge decline)

/-- a report without metrics -/
def Unrealized (r : ThresholdReport) : Prop :=
  r.thresholds = none ∧ r.objectiveValue = none ∧ r.calibrationFalseDeclineRate = none ∧ r.calibrationChallengeRate = none ∧
    r.calibrationReviewCaseRate = none ∧ r.falseInterventionCount = none ∧ r.interventionCount = none ∧ r.reviewCaseCount = none

theorem countP_pos_of_mem (hc : c ∈ i.candidates) (hd : d ∈ i.candidates) {p : ℚ × ℚ → Bool} (h : p (c, d) = true) :
    1 ≤ (pairs i).countP p :=
  List.countP_pos_iff.2 ⟨(c, d), List.mem_product.2 ⟨hc, hd⟩, h⟩

theorem exists_of_isLeast {i : SearchInput} {rate : ℚ → ℚ → ℚ}
    (h : IsLeast {x | ∃ c ∈ i.candidates, ∃ d ∈ i.candidates, c ≤ d ∧ rate c d = x} x) : ∃ c d, rate c d = x := by
  obtain ⟨c, -, d, -, -, hx⟩ := h.1
  exact ⟨c, d, hx⟩

/-- what every report of the search passes -/
theorem totals_check (hi : i.Valid) (hcounter : i.counter.Lawful) (h : Totals i r) :
    (1 ≤ r.candidateCount ∧ (3 ≤ r.candidateThresholdCount ∧ r.candidateThresholdCount ≤ maxUniqueOperatingScores + 2) ∧
      (1 ≤ r.rowCount ∧ 1 ≤ r.legitimateCount ∧ 1 ≤ r.fraudCount)) ∧
    (r.candidateCount = r.candidateThresholdCount * (r.candidateThresholdCount + 1) / 2 ∧
      r.feasibleCandidateCount ≤ r.candidateCount ∧ r.legitimateCount + r.fraudCount = r.rowCount) ∧
    (∃ count, IsShare r.minimumFalseDeclineRate count r.legitimateCount) ∧
    (∃ count, IsShare r.minimumChallengeRate count r.rowCount) ∧ ∃ count, IsShare r.minimumReviewCaseRate count r.rowCount := by
  obtain ⟨hthree, hmax⟩ := length_candidates hi
  have hzero : (0 : ℚ) ∈ i.candidates := mem_candidates.2 (.inl rfl)
  refine ⟨⟨?_, ?_, ?_⟩, ⟨?_, ?_, ?_⟩, ?_, ?_, ?_⟩
  · rw [h.candidateCount]
    exact countP_pos_of_mem hzero hzero (decide_eq_true le_rfl)
  · rw [h.candidateThresholdCount]
    exact ⟨hthree, hmax⟩
  · rw [h.rowCount, h.legitimateCount, h.fraudCount]
    exact ⟨rowCount_pos hi, hi.legitimate, hi.fraud⟩
  · rw [h.candidateCount, h.candidateThresholdCount, countP_ordered]
  · rw [h.candidateCount, h.feasibleCandidateCount]
    refine List.countP_mono_left fun pair _ hpair => ?_
    exact decide_eq_true (of_decide_eq_true hpair).1
  · rw [h.rowCount, h.legitimateCount, h.fraudCount, SearchInput.rowCount, ← hi.labels, SearchInput.legitimateCount,
      SearchInput.fraudCount]
    exact List.count_false_add_count_true _
  · obtain ⟨c, d, hx⟩ := exists_of_isLeast h.minimumFalseDeclineRate
    rw [← hx, h.legitimateCount]
    exact ⟨_, falseDeclineRate_share hi c d⟩
  · obtain ⟨c, d, hx⟩ := exists_of_isLeast h.minimumChallengeRate
    rw [← hx, h.rowCount]
    exact ⟨_, challengeRate_share hi c d⟩
  · obtain ⟨c, d, hx⟩ := exists_of_isLeast h.minimumReviewCaseRate
    rw [← hx, h.rowCount]
    exact ⟨_, reviewRate_share hi hcounter c d⟩

/-- the parts of the validation that every report shares -/
theorem check_ok (hi : i.Valid) (hcounter : i.counter.Lawful) (h : Totals i r)
    (hfields : (r.objectiveValue.all (0 ≤ ·) &&
      [r.calibrationFalseDeclineRate, r.calibrationChallengeRate, r.calibrationReviewCaseRate].all
        (·.all fun x => 0 ≤ x && x ≤ 1) &&
      [r.falseInterventionCount, r.interventionCount, r.reviewCaseCount].all (·.all (0 ≤ ·))) = true)
    (hrealized : r.realizedConsistent = true) (hcounts : r.checkCounts = .ok ()) : r.check = .ok () := by
  obtain ⟨⟨hone, hthresholds, hrows⟩, htotals, ⟨falseDeclines, hfalse⟩, ⟨challenges, hchallenge⟩, ⟨reviews, hreview⟩⟩ :=
    totals_check hi hcounter h
  have hvalid : r.validFields = true := by
    unfold ThresholdReport.validFields
    simp only [Bool.and_eq_true, List.all_cons, List.all_nil, decide_eq_true_eq, Bool.and_true] at hfields ⊢
    exact ⟨⟨⟨⟨hfields, hone⟩, hthresholds⟩, hrows⟩, hfalse.unit, hchallenge.unit, hreview.unit⟩
  unfold ThresholdReport.check
  rw [hvalid, hrealized, htotals.1, decide_eq_true rfl, decide_eq_true (htotals.1 ▸ htotals.2.1), decide_eq_true htotals.2.2]
  simp only [check, Bool.and_true, if_true, except_ok_bind]
  rw [hfalse.integralCount hrows.2.1, except_ok_bind, hchallenge.integralCount hrows.1, except_ok_bind,
    hreview.integralCount hrows.1, except_ok_bind, hcounts]

/-- the counts of a pair agree with each other -/
theorem checkCounts_realized (hi : i.Valid) (hcounter : i.counter.Lawful) (h : Totals i r)
    (hobjective : Replay.objective i c d = some objective) (hr : Realizes i r c d objective) :
    r.checkCounts = .ok () := by
  have hrows := rowCount_pos hi
  have hreview := reviewCases_bounds hi hcounter c d
  have hsum : Replay.interventions i c d = _ := interventions_eq hi
  have hall := count_le_rowCount hi (fun _ action => action ≠ .approve) c d
  have hfalse := falseInterventions_le hi c d
  have hfraud := fraudInterventions_le hi c d
  have hdeclines : Replay.falseDeclines i c d ≤ _ := falseDeclines_le_interventions c d
  have hchallenges : Replay.challenges i c d ≤ _ := challenges_le_interventions c d
  have hall' : Replay.interventions i c d ≤ i.rowCount := hall
  unfold ThresholdReport.checkCounts
  rw [hr.objectiveValue, hr.falseDeclineRate, hr.challengeRate, hr.reviewCaseRate, hr.falseInterventionCount,
    hr.interventionCount, hr.reviewCaseCount]
  dsimp only
  rw [h.legitimateCount, h.rowCount, h.fraudCount, h.fraudValue, (falseDeclineRate_share hi c d).integralCount hi.legitimate,
    except_ok_bind, (challengeRate_share hi c d).integralCount hrows, except_ok_bind,
    (reviewRate_share hi hcounter c d).integralCount hrows, except_ok_bind]
  have hbounds : (decide ((Replay.falseInterventions i c d : ℤ) ≤ i.legitimateCount) &&
      decide (Replay.reviewCases i c d ≤ i.rowCount) && decide ((Replay.interventions i c d : ℤ) ≤ i.rowCount)) = true := by
    simp only [Bool.and_eq_true, decide_eq_true_eq]
    omega
  have horder : (decide (Replay.reviewCases i c d = Replay.reviewCases i c d) &&
      decide ((Replay.falseDeclines i c d : ℤ) ≤ Replay.falseInterventions i c d) &&
      decide ((Replay.falseInterventions i c d : ℤ) ≤ Replay.interventions i c d) &&
      decide ((Replay.challenges i c d : ℤ) ≤ Replay.interventions i c d) &&
      decide (Replay.reviewCases i c d ≤ Replay.interventions i c d)) = true := by
    simp only [Bool.and_eq_true, decide_eq_true_eq]
    refine ⟨⟨⟨⟨trivial, ?_⟩, ?_⟩, ?_⟩, hreview.2⟩
    · exact Int.ofNat_le.2 hdeclines
    · exact Int.ofNat_le.2 (by omega)
    · exact Int.ofNat_le.2 hchallenges
  rw [hbounds, horder]
  simp only [check, if_true, except_ok_bind]
  unfold Replay.objective at hobjective
  cases hvalues : i.values with
  | some values =>
    rw [Option.isSome_some, if_pos rfl, if_pos (decide_eq_true (by omega))]
  | none =>
    rw [hvalues] at hobjective
    cases hobjective
    have hshare : IsShare ((Replay.fraudInterventions i c d : ℚ) / i.fraudCount) (Replay.fraudInterventions i c d) i.fraudCount :=
      ⟨by push_cast; rfl, Int.natCast_nonneg _, Int.ofNat_le.2 hfraud⟩
    rw [Option.isSome_none, if_neg Bool.false_ne_true, if_pos (decide_eq_true hshare.unit.2), except_ok_bind,
      hshare.integralCount hi.fraud, except_ok_bind, if_pos (decide_eq_true (by omega))]

/-- a report of a feasible pair is valid -/
theorem check_realized (hi : i.Valid) (hcounter : i.counter.Lawful) (h : Totals i r) (hfeasible : r.feasible = true)
    (hc : c ∈ i.candidates) (hd : d ∈ i.candidates) (hpair : Replay.Feasible i c d)
    (hobjective : Replay.objective i c d = some objective) (hr : Realizes i r c d objective) : r.check = .ok () := by
  obtain ⟨hle, hfalseMax, hchallengeMax, hreviewMax⟩ := hpair
  have hfalse := falseDeclineRate_share hi c d
  have hchallenge := challengeRate_share hi c d
  have hreview := reviewRate_share hi hcounter c d
  obtain ⟨t, ht, -⟩ := Option.map_eq_some_iff.1 hr.thresholds
  refine check_ok hi hcounter h ?_ ?_ ?_
  · rw [hr.objectiveValue, hr.falseDeclineRate, hr.challengeRate, hr.reviewCaseRate, hr.falseInterventionCount,
      hr.interventionCount, hr.reviewCaseCount]
    simp [objective_nonneg hi hobjective, hfalse.unit, hchallenge.unit, hreview.unit, hreview.2.1]
  · unfold ThresholdReport.realizedConsistent
    rw [ht, hr.objectiveValue, hr.falseDeclineRate, hr.challengeRate, hr.reviewCaseRate, hr.falseInterventionCount,
      hr.interventionCount, hr.reviewCaseCount, hfeasible, h.budget]
    have hcount : 1 ≤ r.feasibleCandidateCount := by
      rw [h.feasibleCandidateCount]
      exact countP_pos_of_mem hc hd (decide_eq_true ⟨hle, hfalseMax, hchallengeMax, hreviewMax⟩)
    simp only [Bool.true_and, Bool.and_eq_true, decide_eq_true_eq]
    exact ⟨⟨⟨⟨⟨⟨hcount, hfalseMax⟩, hchallengeMax⟩, hreviewMax⟩, h.minimumFalseDeclineRate.2 ⟨c, hc, d, hd, hle, rfl⟩⟩,
      h.minimumChallengeRate.2 ⟨c, hc, d, hd, hle, rfl⟩⟩, h.minimumReviewCaseRate.2 ⟨c, hc, d, hd, hle, rfl⟩⟩
  · exact checkCounts_realized hi hcounter h hobjective hr

theorem check_unrealized (hi : i.Valid) (hcounter : i.counter.Lawful) (h : Totals i r) (hfeasible : r.feasible = false)
    (hnone : r.feasibleCandidateCount = 0) (hr : Unrealized r) : r.check = .ok () := by
  obtain ⟨hthresholds, hobjective, hfalse, hchallenge, hreview, hfalseCount, hcount, hreviewCount⟩ := hr
  refine check_ok hi hcounter h ?_ ?_ ?_
  · rw [hobjective, hfalse, hchallenge, hreview, hfalseCount, hcount, hreviewCount]
    rfl
  · unfold ThresholdReport.realizedConsistent
    rw [hthresholds, hobjective, hfalse, hchallenge, hreview, hfalseCount, hcount, hreviewCount, hfeasible, hnone]
    rfl
  · unfold ThresholdReport.checkCounts
    rw [hobjective]

/-- what the selection of an input is: the totals, and the best of the pairs that keep the budget, if there is one -/
structure Optimal (i : SearchInput) (r : ThresholdReport) : Prop where
  totals : Totals i r
  feasible : r.feasible = true ↔ ∃ c ∈ i.candidates, ∃ d ∈ i.candidates, Replay.Feasible i c d
  unrealized : r.feasible = false → Unrealized r
  best : r.feasible = true → ∃ c ∈ i.candidates, ∃ d ∈ i.candidates, ∃ objective,
    Replay.Feasible i c d ∧ Replay.objective i c d = some objective ∧ Realizes i r c d objective ∧
      ∀ c' ∈ i.candidates, ∀ d' ∈ i.candidates, Replay.Feasible i c' d' → ∃ objective',
        Replay.objective i c' d' = some objective' ∧
          (Replay.candidate i c' d' objective').ranking ≤ (Replay.candidate i c d objective).ranking

theorem exists_entry (hc : c ∈ i.candidates) : ∃ entry ∈ i.candidates.zipIdx, entry.1 = c := by
  rw [← List.zipIdx_map_fst 0 i.candidates] at hc
  exact List.mem_map.1 hc

/-- what the report tells beside its metrics -/
theorem totals_of_found (hi : i.Valid) (hcounter : i.counter.Lawful) {s : SearchState} (h : Found i i.candidates.zipIdx s)
    (thresholds : Option PolicyThresholds) : Totals i (baseDocument i s thresholds) := by
  obtain ⟨hthree, -⟩ := length_candidates hi
  unfold baseDocument
  refine ⟨rfl, rfl, rfl, (countP_ordered i).symm, ?_, rfl, rfl, rfl, ?_, ?_, ?_⟩
  · have hsum := countP_pairs i fun c d => Replay.Feasible i c d
    have hentries : i.candidates.zipIdx.map (fun entry => feasibleDeclines i entry.1) = i.candidates.map (feasibleDeclines i) := by
      calc i.candidates.zipIdx.map (fun entry => feasibleDeclines i entry.1)
          = (i.candidates.zipIdx.map Prod.fst).map (feasibleDeclines i) := by rw [List.map_map]; rfl
        _ = i.candidates.map (feasibleDeclines i) := by rw [List.zipIdx_map_fst]
    dsimp only
    rw [h.count, hsum, hentries]
    rfl
  · have hlast : i.candidates.length - 1 < i.candidates.length := by omega
    refine ⟨⟨_, List.getElem_mem hlast, _, List.getElem_mem hlast, le_rfl, (falseDeclineRate_eq hi _ hlast).symm⟩, ?_⟩
    rintro x ⟨c, -, d, hd, -, rfl⟩
    obtain ⟨k, hk, rfl⟩ := exists_of_mem_candidates hd
    rw [← falseDeclineRate_eq hi c hk]
    exact falseDeclineRate_anti hi (by omega) hlast
  · have hzero : (0 : ℚ) ∈ i.candidates := mem_candidates.2 (.inl rfl)
    refine ⟨⟨0, hzero, 0, hzero, le_rfl, ?_⟩, ?_⟩
    · rw [Replay.challengeRate, challenges_self hi, Nat.cast_zero, zero_div]
    · rintro x ⟨c, -, d, -, -, rfl⟩
      exact (challengeRate_share hi c d).unit.1
  · have hbelow : ∀ c ∈ i.candidates, s.minimumReview ≤ Replay.reviewRate i c c := by
      intro c hc
      obtain ⟨entry, hentry, rfl⟩ := exists_entry hc
      exact h.minimum entry hentry
    refine ⟨?_, ?_⟩
    · rcases h.attained with hone | ⟨entry, hentry, heq⟩
      · -- a minimum of one is met by every pair
        have hzero : (0 : ℚ) ∈ i.candidates := mem_candidates.2 (.inl rfl)
        refine ⟨0, hzero, 0, hzero, le_rfl, le_antisymm ?_ (hbelow 0 hzero)⟩
        rw [hone]
        exact (reviewRate_share hi hcounter 0 0).unit.2
      · exact ⟨entry.1, List.fst_mem_of_mem_zipIdx hentry, entry.1, List.fst_mem_of_mem_zipIdx hentry, le_rfl, heq.symm⟩
    · rintro x ⟨c, hc, d, -, hle, rfl⟩
      rw [Replay.reviewRate, ← reviewCases_eq hcounter le_rfl hle]
      exact hbelow c hc

theorem make_ok (hc : 0 ≤ c ∧ c ≤ 1) (hd : 0 ≤ d ∧ d ≤ 1) (hle : c ≤ d) :
    PolicyThresholds.make c d = .ok ⟨c, d, hc, hd, hle⟩ := dif_pos ⟨hc, hd, hle⟩

/-- the report of what the search has found -/
theorem report_ok (hi : i.Valid) (hcounter : i.counter.Lawful) {s : SearchState} (h : Found i i.candidates.zipIdx s) :
    ∃ r, reportOf i s = .ok r ∧ Optimal i r := by
  have hbest : ∀ c ∈ i.candidates, ∀ d ∈ i.candidates, Replay.Feasible i c d →
      ∃ objective selected, Replay.objective i c d = some objective ∧ s.selected = some selected ∧
        (Replay.candidate i c d objective).ranking ≤ selected.ranking := by
    intro c hc d hd hpair
    obtain ⟨entry, hentry, rfl⟩ := exists_entry hc
    exact h.best entry hentry d hd hpair
  unfold reportOf
  cases hselected : s.selected with
  | none =>
    have hno : ¬∃ c ∈ i.candidates, ∃ d ∈ i.candidates, Replay.Feasible i c d := by
      rintro ⟨c, hc, d, hd, hpair⟩
      obtain ⟨_, _, -, hsome, -⟩ := hbest c hc d hd hpair
      rw [hselected] at hsome
      cases hsome
    have htotals := totals_of_found hi hcounter h none
    have hfeasible : (baseDocument i s none).feasible = false := by rw [baseDocument, hselected]; rfl
    have hunrealized : Unrealized (baseDocument i s none) := by
      unfold baseDocument Unrealized
      rw [hselected]
      exact ⟨rfl, rfl, rfl, rfl, rfl, rfl, rfl, rfl⟩
    have hnone : (baseDocument i s none).feasibleCandidateCount = 0 := by
      rw [htotals.feasibleCandidateCount, List.countP_eq_zero]
      rintro ⟨c, d⟩ hmem
      obtain ⟨hc, hd⟩ := List.mem_product.1 hmem
      simpa using fun hpair => hno ⟨c, hc, d, hd, hpair⟩
    refine ⟨baseDocument i s none, ?_, htotals, ?_, fun _ => hunrealized, ?_⟩
    · dsimp only
      rw [except_ok_bind, check_unrealized hi hcounter htotals hfeasible hnone hunrealized]
      rfl
    · rw [hfeasible]
      exact ⟨fun h => absurd h Bool.false_ne_true, fun h => absurd h hno⟩
    · intro htrue
      rw [hfeasible] at htrue
      cases htrue
  | some best =>
    obtain ⟨entry, hentry, d, hd, objective, hpair, hobjective, rfl⟩ := h.chosen best hselected
    have hc : entry.1 ∈ i.candidates := List.fst_mem_of_mem_zipIdx hentry
    generalize entry.1 = c at hc hpair hobjective hselected
    have hmake := make_ok (candidates_unit hi hc) (candidates_unit hi hd) hpair.1
    generalize hthresholds : (⟨c, d, candidates_unit hi hc, candidates_unit hi hd, hpair.1⟩ : PolicyThresholds) = thresholds at hmake
    have htotals := totals_of_found hi hcounter h (some thresholds)
    have hfeasible : (baseDocument i s (some thresholds)).feasible = true := by rw [baseDocument, hselected]; rfl
    have hrealizes : Realizes i (baseDocument i s (some thresholds)) c d objective := by
      unfold baseDocument
      rw [hselected, ← hthresholds]
      exact ⟨rfl, rfl, rfl, rfl, rfl, rfl, rfl, rfl⟩
    refine ⟨baseDocument i s (some thresholds), ?_, htotals, ?_, ?_, ?_⟩
    · have hchallenge : (Replay.candidate i c d objective).challenge = c := rfl
      have hdecline : (Replay.candidate i c d objective).decline = d := rfl
      dsimp only
      rw [hchallenge, hdecline, hmake]
      dsimp only [Except.map]
      rw [except_ok_bind, check_realized hi hcounter htotals hfeasible hc hd hpair hobjective hrealizes]
      rfl
    · rw [hfeasible]
      exact ⟨fun _ => ⟨c, hc, d, hd, hpair⟩, fun _ => rfl⟩
    · intro hfalse
      rw [hfeasible] at hfalse
      cases hfalse
    · intro _
      refine ⟨c, hc, d, hd, objective, hpair, hobjective, hrealizes, ?_⟩
      intro c' hc' d' hd' hpair'
      obtain ⟨objective', selected, hobjective', hsome, hle⟩ := hbest c' hc' d' hd' hpair'
      rw [hselected] at hsome
      cases hsome
      exact ⟨objective', hobjective', hle⟩

/-! ## The selection -/

/-- inputs that the selection accepts -/
structure Accepted (scores labels : List ℚ) (mandatoryActions : List Action) (values : Option (List ℚ)) : Prop where
  unitScores : ∀ x ∈ scores, 0 ≤ x ∧ x ≤ 1
  binaryLabels : ∀ x ∈ labels, x = 0 ∨ x = 1
  bothClasses : (0 : ℚ) ∈ labels ∧ (1 : ℚ) ∈ labels
  mandatory : ∀ a ∈ mandatoryActions, a = .approve ∨ a = .decline
  labelCount : labels.length = scores.length
  actionCount : mandatoryActions.length = scores.length
  nonnegValues : ∀ vs, values = some vs → vs.length = scores.length ∧ ∀ v ∈ vs, 0 ≤ v
  unique : scores.dedup.length ≤ maxUniqueOperatingScores

/-- what the search reads of an input -/
def inputOf (scores labels : List ℚ) (mandatoryActions : List Action) (counter : ReviewCounter) (budget : OperatingBudget)
    (values : Option (List ℚ)) : SearchInput :=
  ⟨normalizeValidatedScores scores, labels.map fun x => x = 1, mandatoryActions, values, counter, budget⟩

theorem scoreMin_pos : 0 < scoreMin ∧ scoreMin < 1 ∧ 0 < scoreMax ∧ scoreMax < 1 := by decide +kernel

variable {scores labels : List ℚ} {mandatoryActions : List Action} {values : Option (List ℚ)}

theorem Accepted.valid (h : Accepted scores labels mandatoryActions values) (counter : ReviewCounter) (budget : OperatingBudget) :
    (inputOf scores labels mandatoryActions counter budget values).Valid where
  labels := by
    unfold inputOf normalizeValidatedScores
    rw [List.length_map, List.length_map, h.labelCount]
  mandatory := by
    unfold inputOf normalizeValidatedScores
    rw [List.length_map, h.actionCount]
  values := by
    intro vs hvs
    unfold inputOf normalizeValidatedScores
    rw [List.length_map]
    exact h.nonnegValues vs hvs
  scores := by
    obtain ⟨hmin, hmin', hmax, hmax'⟩ := scoreMin_pos
    intro s hs
    obtain ⟨x, hx, rfl⟩ := List.mem_map.1 hs
    exact ⟨lt_min (lt_max_of_lt_right hmin) hmax, min_lt_of_right_lt hmax'⟩
  legitimate := by
    refine List.count_pos_iff.2 (List.mem_map.2 ⟨0, h.bothClasses.1, ?_⟩)
    exact decide_eq_false zero_ne_one
  fraud := List.count_pos_iff.2 (List.mem_map.2 ⟨1, h.bothClasses.2, decide_eq_true rfl⟩)
  unique := by
    refine le_trans ?_ h.unique
    unfold inputOf normalizeValidatedScores
    have himage : (scores.map fun x => min (max x scoreMin) scoreMax).toFinset =
        scores.toFinset.image fun x => min (max x scoreMin) scoreMax := by
      ext x
      simp
    rw [← List.card_toFinset, ← List.card_toFinset, himage]
    exact Finset.card_image_le

/-- an input that is accepted is searched -/
theorem selectPolicyThresholds_eq (h : Accepted scores labels mandatoryActions values) (counter : ReviewCounter)
    (budget : OperatingBudget) :
    selectPolicyThresholds scores labels mandatoryActions counter budget values =
      (search (inputOf scores labels mandatoryActions counter budget values) >>=
        reportOf (inputOf scores labels mandatoryActions counter budget values)) := by
  have hi := h.valid counter budget
  have hlabels : labels ≠ [] := List.ne_nil_of_mem h.bothClasses.1
  have hpos : 0 < labels.length := List.length_pos_of_ne_nil hlabels
  have hscores : scores ≠ [] := List.ne_nil_of_length_pos (h.labelCount ▸ hpos)
  have hactions : mandatoryActions ≠ [] := by
    refine List.ne_nil_of_length_pos ?_
    rw [h.actionCount, ← h.labelCount]
    exact hpos
  have hraw : rawScores scores = .ok scores := by
    have hunit : (!scores.any fun x => x < 0 || 1 < x) = true := by
      rw [Bool.not_eq_true', List.any_eq_false]
      intro x hx
      obtain ⟨hlow, hhigh⟩ := h.unitScores x hx
      simp [hlow, hhigh]
    unfold rawScores
    rw [decide_eq_true hscores, hunit]
    rfl
  have hlabelValues : labelsOf labels = .ok (labels.map fun x => x = 1) := by
    have hbinary : (labels.all fun x => x = 0 || x = 1) = true := by
      rw [List.all_eq_true]
      intro x hx
      simpa using h.binaryLabels x hx
    unfold labelsOf
    rw [decide_eq_true hlabels, hbinary]
    rfl
  have hactionValues : mandatoryActionsOf mandatoryActions = .ok mandatoryActions := by
    have hallowed : (mandatoryActions.all fun a => a = .approve || a = .decline) = true := by
      rw [List.all_eq_true]
      intro a ha
      simpa using h.mandatory a ha
    unfold mandatoryActionsOf
    rw [decide_eq_true hactions, hallowed]
    rfl
  have hvalues : values.mapM valuesOf = .ok values := by
    cases values with
    | none => rfl
    | some vs =>
      obtain ⟨hlength, hnonneg⟩ := h.nonnegValues vs rfl
      have hne : vs ≠ [] := by
        refine List.ne_nil_of_length_pos ?_
        rw [hlength, ← h.labelCount]
        exact hpos
      have hall : (!vs.any fun x => x < 0) = true := by
        rw [Bool.not_eq_true', List.any_eq_false]
        intro x hx
        simpa using hnonneg x hx
      have hvs : valuesOf vs = .ok vs := by
        unfold valuesOf
        rw [decide_eq_true hne, hall]
        rfl
      rw [Option.mapM_some, hvs]
      rfl
  have hlengths : (((labels.map fun x => decide (x = 1)).length = (normalizeValidatedScores scores).length &&
      mandatoryActions.length = (normalizeValidatedScores scores).length &&
      values.all fun vs => vs.length = (normalizeValidatedScores scores).length) : Bool) = true := by
    unfold normalizeValidatedScores
    simp only [List.length_map, h.labelCount, h.actionCount, decide_true, Bool.true_and]
    cases values with
    | none => rfl
    | some vs => exact decide_eq_true (h.nonnegValues vs rfl).1
  have hlegitimate := hi.legitimate.ne'
  have hfraud := hi.fraud.ne'
  unfold inputOf at hlegitimate hfraud
  unfold selectPolicyThresholds
  rw [hraw, except_ok_bind]
  dsimp only
  rw [hlabelValues, except_ok_bind, hactionValues, except_ok_bind, hvalues, except_ok_bind, hlengths, decide_eq_true h.unique,
    decide_eq_true hlegitimate, decide_eq_true hfraud]
  rfl

/-- **The selected thresholds are optimal.** For every accepted input, every budget and every counter that depends on the
interventions only, the selection returns a report that counts the feasible pairs, tells the best of them (by objective, then
by the fewest false interventions, then by the larger thresholds) and what a recount of its actions gives, and is infeasible
exactly when there is no such pair; or a feasible pair captures a value that no float holds, and the selection raises that. -/
theorem selectPolicyThresholds_optimal (h : Accepted scores labels mandatoryActions values) {counter : ReviewCounter}
    (hcounter : counter.Lawful) (budget : OperatingBudget) :
    (∃ r, selectPolicyThresholds scores labels mandatoryActions counter budget values = .ok r ∧
      Optimal (inputOf scores labels mandatoryActions counter budget values) r) ∨
    ∃ e, selectPolicyThresholds scores labels mandatoryActions counter budget values = .error e ∧
      Overflows (inputOf scores labels mandatoryActions counter budget values) e := by
  have hi := h.valid counter budget
  rw [selectPolicyThresholds_eq h counter budget]
  rcases search_found hi hcounter with ⟨s, hs, hfound⟩ | ⟨e, he, hoverflow⟩
  · obtain ⟨r, hr, hoptimal⟩ := report_ok hi hcounter hfound
    rw [hs, except_ok_bind, hr]
    exact .inl ⟨r, rfl, hoptimal⟩
  · rw [he]
    exact .inr ⟨e, rfl, hoverflow⟩

namespace Sample

def budget : OperatingBudget where
  challengeRateMax := 1 / 2
  falseDeclineRateMax := 1 / 2
  reviewCaseRateMax := 1
  challenge := by norm_num
  falseDecline := by norm_num
  reviewCase := by norm_num

/-- a case for every intervention -/
def everyIntervention : ReviewCounter := fun _ actions => some ((interventionMask actions).count true)

theorem everyIntervention_lawful : everyIntervention.Lawful where
  deterministic _ _ := rfl
  maskInvariant actions actions' h := by
    unfold everyIntervention
    rw [h]
  bounded actions := ⟨_, rfl, Int.natCast_nonneg _, le_rfl⟩

/-- a legitimate row and two of fraud, one of them declined in any case -/
theorem three_rows_optimal :
    ∃ r, selectPolicyThresholds [1 / 4, 1 / 2, 1] [0, 1, 1] [.approve, .approve, .decline] everyIntervention budget none = .ok r ∧
      Optimal (inputOf [1 / 4, 1 / 2, 1] [0, 1, 1] [.approve, .approve, .decline] everyIntervention budget none) r := by
  have haccepted : Accepted [1 / 4, 1 / 2, 1] [0, 1, 1] [.approve, .approve, .decline] none :=
    ⟨by decide +kernel, by decide +kernel, by decide +kernel, by decide, rfl, rfl, nofun, by decide +kernel⟩
  rcases selectPolicyThresholds_optimal haccepted everyIntervention_lawful budget with h | ⟨_, _, _, c, _, d, _, _, hnone⟩
  · exact h
  · cases hnone

end Sample

end Thresholds

end Apar
