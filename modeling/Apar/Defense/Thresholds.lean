/-
Threshold selection (`defense/thresholds.py`): of all pairs of a challenge and a decline threshold, the best one within the
operating budget. The search counts the rows from every score on once, and then looks, for every challenge threshold, for the
last decline threshold that its budget allows.

Scores, values and thresholds are floats, told by their values; rates are exact. The review counter is a parameter: what its
n-th call returns on an array of actions. The digests of a report are left out, and so is what numpy refuses of an array
that is no list of finite numbers.
-/
import Apar.Contracts.Decision
import Apar.Core.Binary64
import Apar.Core.Bisection

namespace Apar

open Exec

namespace Thresholds

/-- the exceptions of the selection -/
inductive ThresholdError where
  | contract (message : String)
  | assertion (message : String)
  /-- a `ValidationError` of pydantic -/
  | validation
deriving DecidableEq

/-- `OperatingBudget`, but for its schema version -/
structure OperatingBudget where
  challengeRateMax : ℚ
  falseDeclineRateMax : ℚ
  reviewCaseRateMax : ℚ
  challenge : 0 ≤ challengeRateMax ∧ challengeRateMax ≤ 1
  falseDecline : 0 ≤ falseDeclineRateMax ∧ falseDeclineRateMax ≤ 1
  reviewCase : 0 ≤ reviewCaseRateMax ∧ reviewCaseRateMax ≤ 1

/-- `PolicyThresholds` -/
structure PolicyThresholds where
  challenge : ℚ
  decline : ℚ
  challengeUnit : 0 ≤ challenge ∧ challenge ≤ 1
  declineUnit : 0 ≤ decline ∧ decline ≤ 1
  ordered : challenge ≤ decline

/-- the validators of `PolicyThresholds` -/
def PolicyThresholds.make (challenge decline : ℚ) : Except ThresholdError PolicyThresholds :=
  if h : (0 ≤ challenge ∧ challenge ≤ 1) ∧ (0 ≤ decline ∧ decline ≤ 1) ∧ challenge ≤ decline then
    .ok ⟨challenge, decline, h.1, h.2.1, h.2.2⟩
  else .error .validation

/-- `1e-8`, as a float -/
def scoreMin : ℚ := Binary64.nearest (1 / 10 ^ 8)

/-- `1.0 - 1e-8` -/
def scoreMax : ℚ := Binary64.sub 1 scoreMin

def maxUniqueOperatingScores : ℕ := 4096

/-- `math.fsum(xs)`, of finite floats: the sum is rounded once; `none` is `OverflowError` -/
@[irreducible] def fsum (xs : List ℚ) : Option ℚ :=
  let total := Binary64.nearest xs.sum
  if |total| < 2 ^ 1024 then some total else none

/-! ## Inputs -/

/-- `_raw_scores` -/
def rawScores (scores : List ℚ) : Except ThresholdError (List ℚ) := do
  check (scores ≠ []) (.contract "scores must be a nonempty one-dimensional array")
  check (!scores.any fun x => x < 0 || 1 < x) (.contract "raw operating scores must be in [0, 1]")
  return scores

/-- `_normalize_validated_scores` -/
def normalizeValidatedScores (scores : List ℚ) : List ℚ := scores.map fun x => min (max x scoreMin) scoreMax

/-- `_labels`; a label that is one is true -/
def labelsOf (labels : List ℚ) : Except ThresholdError (List Bool) := do
  check (labels ≠ []) (.contract "labels must be a nonempty one-dimensional array")
  check (labels.all fun x => x = 0 || x = 1) (.contract "labels must contain only binary values")
  return labels.map fun x => x = 1

/-- `_mandatory_actions` -/
def mandatoryActionsOf (actions : List Action) : Except ThresholdError (List Action) := do
  check (actions ≠ []) (.contract "mandatory_actions must be a nonempty one-dimensional array")
  check (actions.all fun a => a = .approve || a = .decline)
    (.contract "mandatory_actions must contain only exact APPROVE or DECLINE Action values")
  return actions

/-- `_values` -/
def valuesOf (values : List ℚ) : Except ThresholdError (List ℚ) := do
  check (values ≠ []) (.contract "values must be a nonempty one-dimensional array")
  check (!values.any fun x => x < 0) (.contract "values must be finite and nonnegative")
  return values

/-! ## Actions and the review counter -/

/-- the action of one row -/
def actionOf (challenge decline score : ℚ) (mandatory : Action) : Action :=
  if mandatory = .decline ∨ decline ≤ score then .decline
  else if challenge ≤ score then .challenge
  else .approve

/-- `_apply_actions` -/
def applyActions (scores : List ℚ) (mandatory : List Action) (challenge decline : ℚ) : List Action :=
  List.zipWith (actionOf challenge decline) scores mandatory

/-- `~_is_action(actions, Action.APPROVE)` -/
def interventionMask (actions : List Action) : List Bool := actions.map fun a => a ≠ .approve

/-- what the n-th call of the counter returns; `none` is an exception -/
abbrev ReviewCounter := ℕ → List Action → Option ℤ

/-- `_call_review_case_counter` -/
def callReviewCaseCounter (counter : ReviewCounter) (call : ℕ) (actions : List Action) : Except ThresholdError ℤ :=
  let interventions := (interventionMask actions).count true
  match counter call actions with
  | none => .error (.contract "review_case_counter raised an exception")
  | some result => do
    check (0 ≤ result ∧ result ≤ interventions)
      (.contract "review_case_counter must return an exact nonnegative int no greater than interventions")
    return result

/-- the calls of the counter so far, and what it returned on each mask -/
structure Reviews where
  calls : ℕ
  cache : Dict (List Bool) ℤ

/-- `_review_cases_for_challenge` -/
def reviewCasesForChallenge (counter : ReviewCounter) (scores : List ℚ) (mandatory : List Action) (challenge : ℚ)
    (reviews : Reviews) : Except ThresholdError (ℤ × Reviews) := do
  let allDeclined := applyActions scores mandatory challenge challenge
  let mask := interventionMask allDeclined
  match reviews.cache.get? mask with
  | some count => return (count, reviews)
  | none =>
    let first ← callReviewCaseCounter counter reviews.calls allDeclined
    let repeated ← callReviewCaseCounter counter (reviews.calls + 1) allDeclined
    check (first = repeated) (.contract "review_case_counter must be deterministic")
    let challenged := applyActions scores mandatory challenge 1
    check (mask = interventionMask challenged) (.assertion "severity variants must preserve the intervention mask")
    let changedSeverity ← callReviewCaseCounter counter (reviews.calls + 2) challenged
    check (first = changedSeverity)
      (.contract ("review_case_counter must be intervention-mask invariant when " ++
        "CHALLENGE and DECLINE severities change"))
    return (first, ⟨reviews.calls + 3, reviews.cache.set mask first⟩)

/-! ## Counts -/

/-- the groups and counts of `_cumulative_statistics`, row by row -/
structure Groups where
  nonmandatory : Dict ℚ ℕ := ∅
  legitimate : Dict ℚ ℕ := ∅
  fraud : Dict ℚ ℕ := ∅
  mandatoryLegitimate : ℕ := 0
  mandatoryFraud : ℕ := 0

/-- `group[score] = group.get(score, 0) + 1` -/
def increment (group : Dict ℚ ℕ) (score : ℚ) : Dict ℚ ℕ := group.set score (group.getD score 0 + 1)

/-- a score, whether it is fraud, and the mandatory action -/
abbrev Row := ℚ × Bool × Action

def Groups.add (g : Groups) (row : Row) : Groups :=
  let (score, isFraud, action) := row
  if action = .decline then
    if isFraud then { g with mandatoryFraud := g.mandatoryFraud + 1 }
    else { g with mandatoryLegitimate := g.mandatoryLegitimate + 1 }
  else
    let g := { g with nonmandatory := increment g.nonmandatory score }
    if isFraud then { g with fraud := increment g.fraud score }
    else { g with legitimate := increment g.legitimate score }

/-- what `_cumulative_statistics` returns -/
structure CumulativeStatistics where
  nonmandatoryGe : List ℕ
  legitimateGe : List ℕ
  fraudGe : List ℕ
  mandatoryLegitimate : ℕ
  mandatoryFraud : ℕ

/-- `zip(scores, labels, mandatory)` -/
def rowsOf (scores : List ℚ) (labels : List Bool) (mandatory : List Action) : List Row :=
  scores.zip (labels.zip mandatory)

/-- `_cumulative_statistics` -/
def cumulativeStatistics (scores : List ℚ) (labels : List Bool) (mandatory : List Action) (candidates : List ℚ) :
    CumulativeStatistics :=
  let groups := (rowsOf scores labels mandatory).foldl Groups.add {}
  { nonmandatoryGe := Bisection.suffixSums (fun t => groups.nonmandatory.getD t 0) candidates
    legitimateGe := Bisection.suffixSums (fun t => groups.legitimate.getD t 0) candidates
    fraudGe := Bisection.suffixSums (fun t => groups.fraud.getD t 0) candidates
    mandatoryLegitimate := groups.mandatoryLegitimate
    mandatoryFraud := groups.mandatoryFraud }

/-- `_captured_fraud_value` -/
def capturedFraudValue (scores : List ℚ) (labels : List Bool) (mandatory : List Action) (values : List ℚ) (challenge : ℚ) :
    Except ThresholdError ℚ :=
  let captured := ((rowsOf scores labels mandatory).zip values).filter fun ((score, isFraud, action), _) =>
    isFraud && (action = .decline || challenge ≤ score)
  match fsum (captured.map Prod.snd) with
  | some total => .ok total
  | none => .error (.contract "captured fraud value aggregate must remain finite")

/-- `_last_challenge_feasible_decline` -/
def lastChallengeFeasibleDecline (nonmandatoryGe : List ℕ) (challengeIndex rowCount : ℕ) (challengeRateMax : ℚ) : ℕ :=
  let feasible (middle : ℕ) : Bool :=
    ((nonmandatoryGe.getD challengeIndex 0 : ℚ) - nonmandatoryGe.getD middle 0) / rowCount ≤ challengeRateMax
  Bisection.lastTrue feasible challengeIndex nonmandatoryGe.length challengeIndex

/-! ## The report -/

/-- `ThresholdReport`, but for its schema version and its digests; `fraudValue` tells the kind of the objective -/
structure ThresholdReport where
  feasible : Bool
  thresholds : Option PolicyThresholds
  budget : OperatingBudget
  fraudValue : Bool
  objectiveValue : Option ℚ
  calibrationFalseDeclineRate : Option ℚ
  calibrationChallengeRate : Option ℚ
  calibrationReviewCaseRate : Option ℚ
  falseInterventionCount : Option ℤ
  interventionCount : Option ℤ
  reviewCaseCount : Option ℤ
  candidateCount : ℕ
  candidateThresholdCount : ℕ
  feasibleCandidateCount : ℕ
  rowCount : ℕ
  legitimateCount : ℕ
  fraudCount : ℕ
  minimumFalseDeclineRate : ℚ
  minimumChallengeRate : ℚ
  minimumReviewCaseRate : ℚ

/-- `_integral_count` -/
def integralCount (rate : ℚ) (denominator : ℕ) : Except ThresholdError ℤ := do
  let nearest := Decimal.halfEven (rate * denominator)
  check (0 ≤ nearest ∧ nearest ≤ denominator) .validation
  check (rate = nearest / denominator) .validation
  return nearest

namespace ThresholdReport

/-- what the validators of the fields check -/
def validFields (r : ThresholdReport) : Bool :=
  let unit (x : ℚ) : Bool := 0 ≤ x && x ≤ 1
  r.objectiveValue.all (0 ≤ ·) &&
    [r.calibrationFalseDeclineRate, r.calibrationChallengeRate, r.calibrationReviewCaseRate].all (·.all unit) &&
    [r.falseInterventionCount, r.interventionCount, r.reviewCaseCount].all (·.all (0 ≤ ·)) &&
    1 ≤ r.candidateCount &&
    (3 ≤ r.candidateThresholdCount && r.candidateThresholdCount ≤ maxUniqueOperatingScores + 2) &&
    [r.rowCount, r.legitimateCount, r.fraudCount].all (1 ≤ ·) &&
    [r.minimumFalseDeclineRate, r.minimumChallengeRate, r.minimumReviewCaseRate].all unit

/-- the first part of `fields_are_consistent`: a report that is feasible has every metric, within its budget -/
def realizedConsistent (r : ThresholdReport) : Bool :=
  match r.thresholds, r.objectiveValue, r.calibrationFalseDeclineRate, r.calibrationChallengeRate,
    r.calibrationReviewCaseRate, r.falseInterventionCount, r.interventionCount, r.reviewCaseCount with
  | some _, some _, some falseDeclineRate, some challengeRate, some reviewCaseRate, some _, some _, some _ =>
    r.feasible && 1 ≤ r.feasibleCandidateCount &&
      falseDeclineRate ≤ r.budget.falseDeclineRateMax &&
      challengeRate ≤ r.budget.challengeRateMax &&
      reviewCaseRate ≤ r.budget.reviewCaseRateMax &&
      r.minimumFalseDeclineRate ≤ falseDeclineRate &&
      r.minimumChallengeRate ≤ challengeRate &&
      r.minimumReviewCaseRate ≤ reviewCaseRate
  | none, none, none, none, none, none, none, none => !r.feasible && r.feasibleCandidateCount = 0
  | _, _, _, _, _, _, _, _ => false

/-- the counts that the rates of a feasible report stand for -/
def checkCounts (r : ThresholdReport) : Except ThresholdError Unit :=
  match r.objectiveValue, r.calibrationFalseDeclineRate, r.calibrationChallengeRate, r.calibrationReviewCaseRate,
    r.falseInterventionCount, r.interventionCount, r.reviewCaseCount with
  | some objective, some falseDeclineRate, some challengeRate, some reviewCaseRate, some falseInterventions,
    some interventions, some reviewCases => do
    let falseDeclineCount ← integralCount falseDeclineRate r.legitimateCount
    let challengeCount ← integralCount challengeRate r.rowCount
    let reviewCount ← integralCount reviewCaseRate r.rowCount
    check (falseInterventions ≤ r.legitimateCount && reviewCases ≤ r.rowCount && interventions ≤ r.rowCount) .validation
    check (reviewCount = reviewCases && falseDeclineCount ≤ falseInterventions && falseInterventions ≤ interventions &&
      challengeCount ≤ interventions && reviewCount ≤ interventions) .validation
    if r.fraudValue then check (interventions - falseInterventions ≤ r.fraudCount) .validation
    else
      check (objective ≤ 1) .validation
      let fraudInterventions ← integralCount objective r.fraudCount
      check (falseInterventions + fraudInterventions = interventions) .validation
  | _, _, _, _, _, _, _ => .ok ()

/-- what validating a report checks -/
def check (r : ThresholdReport) : Except ThresholdError Unit := do
  Exec.check r.validFields .validation
  Exec.check r.realizedConsistent .validation
  Exec.check (r.candidateCount = r.candidateThresholdCount * (r.candidateThresholdCount + 1) / 2 &&
    r.feasibleCandidateCount ≤ r.candidateCount && r.legitimateCount + r.fraudCount = r.rowCount) .validation
  let _ ← integralCount r.minimumFalseDeclineRate r.legitimateCount
  let _ ← integralCount r.minimumChallengeRate r.rowCount
  let _ ← integralCount r.minimumReviewCaseRate r.rowCount
  r.checkCounts

end ThresholdReport

/-! ## The search -/

/-- `ranking`: the objective, the false interventions, and both thresholds -/
abbrev Ranking := ℚ ×ₗ ℤ ×ₗ ℚ ×ₗ ℚ

/-- `candidate` -/
structure Candidate where
  ranking : Ranking
  challenge : ℚ
  decline : ℚ
  falseDeclineRate : ℚ
  challengeRate : ℚ
  reviewRate : ℚ
  falseInterventions : ℤ
  interventionCount : ℤ
  reviewCases : ℤ

/-- what the loop over the challenge thresholds reads -/
structure SearchInput where
  scores : List ℚ
  labels : List Bool
  mandatory : List Action
  values : Option (List ℚ)
  counter : ReviewCounter
  budget : OperatingBudget

namespace SearchInput

variable (i : SearchInput)

def rowCount : ℕ := i.scores.length

def legitimateCount : ℕ := i.labels.count false

def fraudCount : ℕ := i.labels.count true

/-- `candidates` -/
def candidates : List ℚ := sortedSet (0 :: 1 :: i.scores)

def statistics : CumulativeStatistics := cumulativeStatistics i.scores i.labels i.mandatory i.candidates

/-- `false_decline_rates[index]` -/
def falseDeclineRate (index : ℕ) : ℚ :=
  ((i.statistics.mandatoryLegitimate : ℚ) + i.statistics.legitimateGe.getD index 0) / i.legitimateCount

/-- `first_false_decline_feasible` -/
def firstFalseDeclineFeasible : ℕ :=
  (List.range i.candidates.length).findIdx fun index => i.falseDeclineRate index ≤ i.budget.falseDeclineRateMax

end SearchInput

/-- the state of the loop -/
structure SearchState where
  feasibleCount : ℕ
  minimumReview : ℚ
  selected : Option Candidate
  reviews : Reviews

/-- `objective` -/
def objectiveAt (i : SearchInput) (challengeIndex : ℕ) (challenge : ℚ) : Except ThresholdError ℚ :=
  match i.values with
  | some values => capturedFraudValue i.scores i.labels i.mandatory values challenge
  | none => .ok (((i.statistics.mandatoryFraud : ℚ) + i.statistics.fraudGe.getD challengeIndex 0) / i.fraudCount)

/-- the candidate of a challenge threshold and its last decline threshold -/
def candidateAt (i : SearchInput) (challengeIndex declineEnd : ℕ) (challenge : ℚ) (reviewCases : ℤ) :
    Except ThresholdError Candidate := do
  let s := i.statistics
  let decline := i.candidates.getD declineEnd 0
  let challengeRate := ((s.nonmandatoryGe.getD challengeIndex 0 : ℚ) - s.nonmandatoryGe.getD declineEnd 0) / i.rowCount
  let falseInterventions : ℤ := s.mandatoryLegitimate + s.legitimateGe.getD challengeIndex 0
  let interventionCount : ℤ := falseInterventions + s.mandatoryFraud + s.fraudGe.getD challengeIndex 0
  let objective ← objectiveAt i challengeIndex challenge
  return { ranking := toLex (objective, toLex (-falseInterventions, toLex (decline, challenge)))
           challenge := challenge
           decline := decline
           falseDeclineRate := i.falseDeclineRate declineEnd
           challengeRate := challengeRate
           reviewRate := reviewCases / i.rowCount
           falseInterventions := falseInterventions
           interventionCount := interventionCount
           reviewCases := reviewCases }

/-- one turn of the loop over the challenge thresholds -/
def searchStep (i : SearchInput) (state : SearchState) (entry : ℚ × ℕ) : Except ThresholdError SearchState := do
  let (challenge, challengeIndex) := entry
  let (reviewCases, reviews) ← reviewCasesForChallenge i.counter i.scores i.mandatory challenge state.reviews
  let reviewRate : ℚ := reviewCases / i.rowCount
  let state := { state with minimumReview := min state.minimumReview reviewRate, reviews := reviews }
  if i.budget.reviewCaseRateMax < reviewRate then return state
  let declineStart := max challengeIndex i.firstFalseDeclineFeasible
  let declineEnd :=
    lastChallengeFeasibleDecline i.statistics.nonmandatoryGe challengeIndex i.rowCount i.budget.challengeRateMax
  if declineEnd < declineStart then return state
  let candidate ← candidateAt i challengeIndex declineEnd challenge reviewCases
  let better := match state.selected with
    | none => true
    | some selected => selected.ranking < candidate.ranking
  return { state with
    feasibleCount := state.feasibleCount + (declineEnd - declineStart + 1)
    selected := if better then some candidate else state.selected }

/-- the loop over the challenge thresholds -/
def search (i : SearchInput) : Except ThresholdError SearchState :=
  i.candidates.zipIdx.foldlM (searchStep i)
    { feasibleCount := 0, minimumReview := 1, selected := none, reviews := ⟨0, ∅⟩ }

/-- `base_document` -/
def baseDocument (i : SearchInput) (state : SearchState) (thresholds : Option PolicyThresholds) : ThresholdReport where
  feasible := state.selected.isSome
  thresholds := thresholds
  budget := i.budget
  fraudValue := i.values.isSome
  objectiveValue := state.selected.map fun c => (ofLex c.ranking).1
  calibrationFalseDeclineRate := state.selected.map Candidate.falseDeclineRate
  calibrationChallengeRate := state.selected.map Candidate.challengeRate
  calibrationReviewCaseRate := state.selected.map Candidate.reviewRate
  falseInterventionCount := state.selected.map Candidate.falseInterventions
  interventionCount := state.selected.map Candidate.interventionCount
  reviewCaseCount := state.selected.map Candidate.reviewCases
  candidateCount := i.candidates.length * (i.candidates.length + 1) / 2
  candidateThresholdCount := i.candidates.length
  feasibleCandidateCount := state.feasibleCount
  rowCount := i.rowCount
  legitimateCount := i.legitimateCount
  fraudCount := i.fraudCount
  minimumFalseDeclineRate := i.falseDeclineRate (i.candidates.length - 1)
  minimumChallengeRate := 0
  minimumReviewCaseRate := state.minimumReview

/-- the report of what the search has found -/
def reportOf (i : SearchInput) (state : SearchState) : Except ThresholdError ThresholdReport := do
  let thresholds ← match state.selected with
    | some selected => (PolicyThresholds.make selected.challenge selected.decline).map some
    | none => .ok none
  let report := baseDocument i state thresholds
  report.check
  return report

/-- `select_policy_thresholds` -/
def selectPolicyThresholds (scores labels : List ℚ) (mandatoryActions : List Action) (counter : ReviewCounter)
    (budget : OperatingBudget) (values : Option (List ℚ)) : Except ThresholdError ThresholdReport := do
  let rawScoreValues ← rawScores scores
  let scoreValues := normalizeValidatedScores rawScoreValues
  let labelValues ← labelsOf labels
  let actionValues ← mandatoryActionsOf mandatoryActions
  let valueValues ← values.mapM valuesOf
  check (labelValues.length = scoreValues.length && actionValues.length = scoreValues.length &&
      valueValues.all fun vs => vs.length = scoreValues.length)
    (.contract "scores, labels, actions, and values must have equal lengths")
  check (rawScoreValues.dedup.length ≤ maxUniqueOperatingScores)
    (.contract "unique operating scores exceed the frozen maximum of 4096")
  let i : SearchInput := ⟨scoreValues, labelValues, actionValues, valueValues, counter, budget⟩
  check (i.legitimateCount ≠ 0) (.contract "threshold selection requires legitimate rows")
  check (i.fraudCount ≠ 0) (.contract "threshold selection requires fraud rows")
  let state ← search i
  reportOf i state

end Thresholds

end Apar
