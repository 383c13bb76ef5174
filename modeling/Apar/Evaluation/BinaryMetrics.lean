/-
Classification metrics, computed twice (`evaluate_v5_arm` in `evaluation/v5_evaluation.py`; `compute_v5_binary_metrics`
and `compute_v5_calibration` in `evaluation/v5_metrics.py`), over exact numbers.

The two report the same recall, precision, F1, Brier score, calibration error and workload rates for every evaluation in
which some fraud row is detected (`metrics_agree_iff`). Where none is, the one has no F1 and the other has an F1 of zero.

The Brier score and the areas under curves of the one, and the areas of the other, are library functions
(`MetricLibrary`); the digests of metrics are a parameter (`MetricDigests`). The captured and escaped value of the one
are never set.
-/
import Apar.Core.Dict
import Apar.Core.Digest
import Apar.Core.Exec

namespace Apar

open Exec

namespace V5

inductive SentinelAction where
  | approve
  | challenge
  | reviewHold
  | declineHold
deriving DecidableEq

/-- `_DETECTION_ACTIONS` -/
def detectionActions : List SentinelAction := [.challenge, .reviewHold, .declineHold]

namespace Metrics

/-- `V5MetricApplicability` -/
inductive Applicability where
  | defined
  | undefined
  | unavailable
  | notApplicable
deriving DecidableEq, Repr

/-- `ValueError`, and the errors of field constraints -/
structure MetricError where
  message : String
deriving DecidableEq, Repr

/-- `V5MetricEstimate` before its digest -/
structure MetricFields where
  name : String
  applicability : Applicability
  value : Option ℚ
  numerator : Option ℚ
  denominator : Option ℚ
  supportCount : ℕ
  supportSha256 : String
  formula : String
deriving DecidableEq

structure V5MetricEstimate extends MetricFields where
  metricSha256 : String
deriving DecidableEq

/-- `V5CalibrationBin` before its digest -/
structure BinFields where
  lower : ℚ
  upper : ℚ
  finalClosed : Bool
  count : ℕ
  meanProbability : Option ℚ
  empiricalRate : Option ℚ
  absoluteGap : Option ℚ
  eventIds : List String
deriving DecidableEq

structure V5CalibrationBin extends BinFields where
  binSha256 : String
deriving DecidableEq

structure CalibrationFields where
  applicability : Applicability
  boundaries : List ℚ
  bins : List V5CalibrationBin
  expectedCalibrationError : V5MetricEstimate
  maximumCalibrationError : V5MetricEstimate
deriving DecidableEq

structure V5CalibrationEvidence extends CalibrationFields where
  calibrationSha256 : String
deriving DecidableEq

/-- `_digest` of what is digested here: 64 lowercase hexadecimal digits -/
structure MetricDigests where
  support : List String → String
  metric : MetricFields → String
  bin : BinFields → String
  calibration : CalibrationFields → String
  support_isDigest : ∀ x, isDigestText (support x) = true
  metric_isDigest : ∀ x, isDigestText (metric x) = true
  bin_isDigest : ∀ x, isDigestText (bin x) = true
  calibration_isDigest : ∀ x, isDigestText (calibration x) = true

/-- the functions of `sklearn.metrics` that are called, on labels and probabilities; no Brier score is `ValueError` -/
structure MetricLibrary where
  averagePrecisionScore : List ℤ → List ℚ → ℚ
  rocAucScore : List ℤ → List ℚ → ℚ
  brierScoreLoss : List ℤ → List ℚ → Option ℚ

/-! ## Metric estimates -/

/-- `_MAX_ROWS` -/
def maxRows : ℕ := 100000

namespace V5MetricEstimate

/-- the field constraints and `state_and_digest_are_consistent` -/
def validate (d : MetricDigests) (m : V5MetricEstimate) : Except MetricError V5MetricEstimate := do
  check (m.supportCount ≤ maxRows) ⟨"Input should be less than or equal to 100000"⟩
  check (isDigestText m.supportSha256) ⟨"String should match pattern"⟩
  check (isDigestText m.metricSha256) ⟨"String should match pattern"⟩
  match m.applicability with
  | .defined => do
    check (m.value.isSome && m.numerator.isSome && m.denominator.isSome)
      ⟨"defined metric requires value, numerator, and denominator"⟩
    check (m.denominator.any (0 < ·)) ⟨"defined metric denominator must be positive"⟩
  | .undefined =>
    check (m.value.isNone && m.numerator.isSome && m.denominator = some 0)
      ⟨"undefined metric requires numerator and zero denominator"⟩
  | _ =>
    check (m.value.isNone && m.numerator.isNone && m.denominator.isNone)
      ⟨"unavailable/not-applicable metric cannot claim numeric values"⟩
  check (m.metricSha256 = d.metric m.toMetricFields) ⟨"metric digest mismatch"⟩
  return m

end V5MetricEstimate

variable (d : MetricDigests)

/-- the values of `_metric`, with their digest -/
def estimate (name : String) (applicability : Applicability) (value numerator denominator : Option ℚ)
    (supportIds : List String) (formula : String) : V5MetricEstimate :=
  let values : MetricFields :=
    { name, applicability, value, numerator, denominator, supportCount := supportIds.length
      supportSha256 := d.support supportIds, formula }
  { values with metricSha256 := d.metric values }

/-- `_metric` -/
def metric (name : String) (applicability : Applicability) (value numerator denominator : Option ℚ)
    (supportIds : List String) (formula : String) : Except MetricError V5MetricEstimate :=
  V5MetricEstimate.validate d (estimate d name applicability value numerator denominator supportIds formula)

/-- `_ratio_metric` -/
def ratioMetric (name : String) (numerator denominator : ℚ) (supportIds : List String) (formula : String) :
    Except MetricError V5MetricEstimate :=
  if denominator = 0 then metric d name .undefined none (some numerator) (some 0) supportIds formula
  else metric d name .defined (some (numerator / denominator)) (some numerator) (some denominator) supportIds formula

/-- `_not_applicable_metric` -/
def notApplicableMetric (name : String) (supportIds : List String) (formula : String) :
    Except MetricError V5MetricEstimate :=
  metric d name .notApplicable none none none supportIds formula

/-! ## Calibration -/

/-- `V5CalibrationBin.bin_is_complete` -/
def V5CalibrationBin.validate (b : V5CalibrationBin) : Except MetricError V5CalibrationBin := do
  check (isDigestText b.binSha256) ⟨"String should match pattern"⟩
  check (b.eventIds.length ≤ maxRows) ⟨"Tuple should have at most 100000 items after validation"⟩
  check (b.count = b.eventIds.length) ⟨"calibration bin count disagrees with event IDs"⟩
  let statistics := [b.meanProbability, b.empiricalRate, b.absoluteGap]
  check (!(b.count = 0 && statistics.any Option.isSome)) ⟨"empty calibration bin cannot claim statistics"⟩
  check (!(0 < b.count && statistics.any Option.isNone)) ⟨"nonempty calibration bin requires statistics"⟩
  check (b.binSha256 = d.bin b.toBinFields) ⟨"calibration bin digest mismatch"⟩
  return b

/-- `V5CalibrationEvidence.calibration_is_bound` -/
def V5CalibrationEvidence.validate (e : V5CalibrationEvidence) : Except MetricError V5CalibrationEvidence := do
  check (isDigestText e.calibrationSha256) ⟨"String should match pattern"⟩
  if e.applicability = .defined then
    check (e.boundaries.length = e.bins.length + 1) ⟨"calibration boundaries and bins disagree"⟩
  else check (e.bins = []) ⟨"non-applicable calibration cannot retain bins"⟩
  check (e.calibrationSha256 = d.calibration e.toCalibrationFields) ⟨"calibration evidence digest mismatch"⟩
  return e

/-- a row of an evaluation: probability, label, identifier -/
structure ScoredRow where
  probability : ℚ
  label : ℤ
  supportId : String

/-- `sum(xs) / len(xs)` -/
def mean (xs : List ℚ) : ℚ := xs.sum / xs.length

/-- the ten boundaries -/
def tenths : List ℚ := (List.range 11).map fun index => (index : ℚ) / 10

/-- the loop over the bins keeps the bins, the weighted gap and the greatest gap -/
structure Tally where
  bins : List V5CalibrationBin := []
  weightedGap : ℚ := 0
  maximumGap : ℚ := 0

/-- `probability >= lower and (probability <= upper if final else probability < upper)` -/
def inBin (lower upper : ℚ) (final : Bool) (probability : ℚ) : Bool :=
  lower ≤ probability && (if final then decide (probability ≤ upper) else decide (probability < upper))

/-- the values of a bin -/
def binFields (lower upper : ℚ) (final : Bool) (members : List ScoredRow) : BinFields :=
  let meanProbability := mean (members.map ScoredRow.probability)
  let empiricalRate := mean (members.map fun r => (r.label : ℚ))
  let given (x : ℚ) : Option ℚ := if members = [] then none else some x
  { lower, upper, finalClosed := final, count := members.length, meanProbability := given meanProbability
    empiricalRate := given empiricalRate, absoluteGap := given |meanProbability - empiricalRate|
    eventIds := members.map ScoredRow.supportId }

/-- one bin of the loop -/
def addBin (rows : List ScoredRow) (last : ℕ) (t : Tally) (bin : (ℚ × ℚ) × ℕ) : Except MetricError Tally := do
  let final := decide (bin.2 = last)
  let members := rows.filter fun r => inBin bin.1.1 bin.1.2 final r.probability
  let fields := binFields bin.1.1 bin.1.2 final members
  let retained ← V5CalibrationBin.validate d { fields with binSha256 := d.bin fields }
  match fields.absoluteGap with
  | none => return { t with bins := t.bins ++ [retained] }
  | some gap => return {
      bins := t.bins ++ [retained]
      weightedGap := t.weightedGap + (members.length : ℚ) / rows.length * gap
      maximumGap := max t.maximumGap gap }

/-- `compute_v5_calibration` -/
def computeV5Calibration (labels : List ℤ) (probabilities : Option (List ℚ)) (boundaries : List ℚ)
    (supportIds : List String) (applicable : Bool) : Except MetricError V5CalibrationEvidence := do
  check (labels.length = supportIds.length && labels ≠ [])
    ⟨"calibration labels and support must align and be nonempty"⟩
  check (boundaries = tenths) ⟨"calibration requires the frozen ten-bin boundaries"⟩
  if !applicable then do
    let ece ← notApplicableMetric d "expected_calibration_error" supportIds "not applicable to deterministic rules"
    let mce ← notApplicableMetric d "maximum_calibration_error" supportIds "not applicable to deterministic rules"
    let fields : CalibrationFields :=
      { applicability := .notApplicable, boundaries, bins := [], expectedCalibrationError := ece
        maximumCalibrationError := mce }
    V5CalibrationEvidence.validate d { fields with calibrationSha256 := d.calibration fields }
  else
    match probabilities with
    | none => throw ⟨"applicable calibration requires aligned probabilities"⟩
    | some probabilities => do
      check (probabilities.length = labels.length) ⟨"applicable calibration requires aligned probabilities"⟩
      check (probabilities.all fun p => 0 ≤ p && p ≤ 1) ⟨"calibration probabilities must be finite in [0, 1]"⟩
      let rows := (probabilities.zip (labels.zip supportIds)).map fun r => ScoredRow.mk r.1 r.2.1 r.2.2
      let tally ← (boundaries.zip boundaries.tail).zipIdx.foldlM (addBin d rows (boundaries.length - 2)) {}
      let ece ← metric d "expected_calibration_error" .defined (some tally.weightedGap)
        (some (tally.weightedGap * labels.length)) (some labels.length) supportIds "sum(bin_count/total*absolute_gap)"
      let mce ← metric d "maximum_calibration_error" .defined (some tally.maximumGap) (some tally.maximumGap) (some 1)
        supportIds "max(bin_absolute_gap)"
      let fields : CalibrationFields :=
        { applicability := .defined, boundaries, bins := tally.bins, expectedCalibrationError := ece
          maximumCalibrationError := mce }
      V5CalibrationEvidence.validate d { fields with calibrationSha256 := d.calibration fields }

/-! ## The metrics of a complete evaluation -/

/-- `sum(p(action) and label == value for ...)` -/
def countRows (p : SentinelAction → Bool) (value : ℤ) (actions : List SentinelAction) (labels : List ℤ) : ℕ :=
  (actions.zip labels).countP fun r => p r.1 && decide (r.2 = value)

/-- `action in _DETECTION_ACTIONS` -/
def detects (action : SentinelAction) : Bool := detectionActions.contains action

/-- `compute_v5_binary_metrics` -/
def computeV5BinaryMetrics (lib : MetricLibrary) (labels : List ℤ) (actions : List SentinelAction)
    (probabilities : Option (List ℚ)) (supportIds : List String) (probabilityApplicable : Bool) :
    Except MetricError (Dict String V5MetricEstimate) := do
  check (labels ≠ [] && labels.length = actions.length && actions.length = supportIds.length)
    ⟨"binary metric inputs must align and be nonempty"⟩
  check (labels.all fun label => label = 0 || label = 1) ⟨"binary labels must be zero or one"⟩
  let fraudCount := labels.sum
  let legitimateCount := (labels.length : ℤ) - fraudCount
  let truePositive : ℤ := countRows detects 1 actions labels
  let falsePositive : ℤ := countRows detects 0 actions labels
  let falseNegative := fraudCount - truePositive
  let «recall» ← ratioMetric d "recall" truePositive fraudCount supportIds "detected_fraud_rows/fraud_rows"
  let precision ← ratioMetric d "precision" truePositive (truePositive + falsePositive : ℤ) supportIds
    "detected_fraud_rows/all_detected_rows"
  let f1 ← ratioMetric d "f1" (2 * truePositive : ℤ) (2 * truePositive + falsePositive + falseNegative : ℤ) supportIds
    "2*tp/(2*tp+fp+fn)"
  let falseDeclineRate ← ratioMetric d "false_decline_rate" (countRows (· = .declineHold) 0 actions labels)
    legitimateCount supportIds "declined_legitimate_rows/legitimate_rows"
  let challengeRate ← ratioMetric d "challenge_rate" (countRows (· = .challenge) 0 actions labels) legitimateCount
    supportIds "challenged_legitimate_rows/legitimate_rows"
  let reviewRate ← ratioMetric d "review_rate" (countRows (· = .reviewHold) 0 actions labels) legitimateCount
    supportIds "reviewed_legitimate_rows/legitimate_rows"
  let declineRate ← ratioMetric d "decline_rate" (actions.countP (· = .declineHold)) labels.length supportIds
    "declined_rows/all_rows"
  let metrics := Dict.ofList [("recall", «recall»), ("precision", precision), ("f1", f1),
    ("false_decline_rate", falseDeclineRate), ("challenge_rate", challengeRate), ("review_rate", reviewRate),
    ("decline_rate", declineRate)]
  if !probabilityApplicable then
    ["pr_auc", "roc_auc", "brier", "expected_calibration_error", "maximum_calibration_error"].foldlM
      (fun metrics name => do
        let m ← notApplicableMetric d name supportIds "not applicable to deterministic rules"
        pure (metrics.set name m)) metrics
  else
    match probabilities with
    | none => throw ⟨"probability metrics require aligned probabilities"⟩
    | some values => do
      check (values.length = labels.length) ⟨"probability metrics require aligned probabilities"⟩
      check (values.all fun p => 0 ≤ p && p ≤ 1) ⟨"probabilities must be finite values in [0, 1]"⟩
      let both := decide (fraudCount ≠ 0 ∧ legitimateCount ≠ 0)
      let prAuc ← if both then
          let area := lib.averagePrecisionScore labels values
          metric d "pr_auc" .defined (some area) (some area) (some 1) supportIds
            "average_precision(labels,probabilities)"
        else metric d "pr_auc" .undefined none (some fraudCount) (some 0) supportIds "pr_auc requires both classes"
      let rocAuc ← if both then
          let area := lib.rocAucScore labels values
          metric d "roc_auc" .defined (some area) (some area) (some 1) supportIds "roc_auc(labels,probabilities)"
        else metric d "roc_auc" .undefined none (some fraudCount) (some 0) supportIds "roc_auc requires both classes"
      let squaredError := ((values.zip labels).map fun r => (r.1 - (r.2 : ℚ)) ^ 2).sum
      let brier ← metric d "brier" .defined (some (squaredError / labels.length)) (some squaredError)
        (some labels.length) supportIds "sum((probability-label)^2)/all_rows"
      let calibration ← computeV5Calibration d labels (some values) tenths supportIds true
      pure (((((metrics.set "pr_auc" prAuc).set "roc_auc" rocAuc).set "brier" brier).set "expected_calibration_error"
        calibration.expectedCalibrationError).set "maximum_calibration_error" calibration.maximumCalibrationError)

/-! ## The metrics of one arm -/

/-- `V5EvaluationResult`: what `evaluate_v5_arm` fills -/
structure V5EvaluationResult where
  «recall» : Option ℚ
  precision : Option ℚ
  f1 : Option ℚ
  prAuc : Option ℚ
  rocAuc : Option ℚ
  brier : Option ℚ
  expectedCalibrationError : Option ℚ
  falseDeclineRate : Option ℚ
  challengeRate : Option ℚ
  reviewRate : Option ℚ
  supportTotal : ℕ
  supportFraud : ℕ
  supportLegitimate : ℕ
deriving DecidableEq

/-- `_safe_div` -/
def safeDiv (numerator denominator : ℚ) : Option ℚ := if denominator = 0 then none else some (numerator / denominator)

/-- one bin of `_expected_calibration_error` -/
def binError (rows : List (ℤ × ℚ)) (error : ℚ) (index : ℕ) : ℚ :=
  let members := rows.filter fun r => inBin ((index : ℚ) / 10) (((index : ℚ) + 1) / 10) (decide (index = 9)) r.2
  if members = [] then error
  else
    let confidence := mean (members.map Prod.snd)
    let accuracy := mean (members.map fun r => (r.1 : ℚ))
    error + (members.length : ℚ) / rows.length * |accuracy - confidence|

/-- `_expected_calibration_error`, with ten bins -/
def expectedCalibrationError (labels : List ℤ) (probabilities : List ℚ) : ℚ :=
  (List.range 10).foldl (binError (labels.zip probabilities)) 0

/-- `evaluate_v5_arm`; `campaigns` and `amounts` are the lengths of what it does not read otherwise -/
def evaluateV5Arm (lib : MetricLibrary) (yTrue : List ℤ) (actions : List SentinelAction) (probabilities : List ℚ)
    (campaigns amounts : ℕ) : Except MetricError V5EvaluationResult := do
  check (!(yTrue.length = 0 || actions.length = 0 || campaigns = 0 || amounts = 0)) ⟨"empty evaluation input"⟩
  check (yTrue.length = actions.length && actions.length = probabilities.length && probabilities.length = campaigns &&
    campaigns = amounts) ⟨"mismatched evaluation evidence lengths"⟩
  let nFraud := yTrue.countP (· = 1)
  let nBenign := yTrue.countP (· = 0)
  check (!(nFraud = 0 || nBenign = 0)) ⟨"evaluation support must contain both classes"⟩
  check (probabilities.all fun p => 0 ≤ p && p ≤ 1) ⟨"evaluation probabilities must be finite values in [0, 1]"⟩
  let truePositives := countRows detects 1 actions yTrue
  let falsePositives := countRows detects 0 actions yTrue
  let «recall» := safeDiv truePositives nFraud
  let precision := safeDiv truePositives (truePositives + falsePositives : ℕ)
  let f1 := match precision, «recall» with
    | some p, some r => safeDiv (2 * p * r) (p + r)
    | _, _ => none
  let both := decide (0 < nFraud ∧ nFraud < yTrue.length)
  return {
    «recall» := «recall», precision := precision, f1 := f1
    prAuc := if both then some (lib.averagePrecisionScore yTrue probabilities) else none
    rocAuc := if both then some (lib.rocAucScore yTrue probabilities) else none
    brier := lib.brierScoreLoss yTrue probabilities
    expectedCalibrationError := some (expectedCalibrationError yTrue probabilities)
    falseDeclineRate := safeDiv (countRows (· = .declineHold) 0 actions yTrue) nBenign
    challengeRate := safeDiv (countRows (· = .challenge) 0 actions yTrue) nBenign
    reviewRate := safeDiv (countRows (· = .reviewHold) 0 actions yTrue) nBenign
    supportTotal := yTrue.length, supportFraud := nFraud, supportLegitimate := nBenign }

/-! ## The two agree -/

/-- the metrics that both report -/
def V5EvaluationResult.reported (r : V5EvaluationResult) : List (String × Option ℚ) :=
  [("recall", r.«recall»), ("precision", r.precision), ("f1", r.f1), ("brier", r.brier),
    ("expected_calibration_error", r.expectedCalibrationError), ("false_decline_rate", r.falseDeclineRate),
    ("challenge_rate", r.challengeRate), ("review_rate", r.reviewRate)]

/-- the metric has this value, and is undefined when it has none -/
def Reports (metrics : Dict String V5MetricEstimate) (name : String) (value : Option ℚ) : Prop :=
  ∃ m, metrics.get? name = some m ∧ m.value = value ∧ (m.applicability = .undefined ↔ value = none)

/-- both evaluations return, and report the same metrics -/
def Agree (lib : MetricLibrary) (labels : List ℤ) (actions : List SentinelAction) (probabilities : List ℚ)
    (supportIds : List String) (campaigns amounts : ℕ) : Prop :=
  ∃ result metrics, evaluateV5Arm lib labels actions probabilities campaigns amounts = .ok result ∧
    computeV5BinaryMetrics d lib labels actions (some probabilities) supportIds true = .ok metrics ∧
    ∀ p ∈ result.reported, Reports metrics p.1 p.2

/-- labels of both classes, with everything that goes with them -/
structure Aligned (labels : List ℤ) (actions : List SentinelAction) (probabilities : List ℚ) (supportIds : List String)
    (campaigns amounts : ℕ) : Prop where
  binary : ∀ label ∈ labels, label = 0 ∨ label = 1
  fraud : 1 ∈ labels
  legitimate : 0 ∈ labels
  unit : ∀ p ∈ probabilities, 0 ≤ p ∧ p ≤ 1
  actions_length : actions.length = labels.length
  probabilities_length : probabilities.length = labels.length
  ids_length : supportIds.length = labels.length
  campaigns_eq : campaigns = labels.length
  amounts_eq : amounts = labels.length

variable {d}

variable {ids : List String} {labels : List ℤ}

theorem metric_ok (name : String) {a : Applicability} (v n den : Option ℚ) (formula : String)
    (hids : ids.length ≤ maxRows) (hstate : (a = .defined ∧ v.isSome ∧ n.isSome ∧ ∃ q, den = some q ∧ 0 < q) ∨
      (a = .undefined ∧ v = none ∧ n.isSome ∧ den = some 0)) :
    ∃ m, metric d name a v n den ids formula = .ok m ∧ m.value = v ∧ m.applicability = a := by
  refine ⟨estimate d name a v n den ids formula, ?_, rfl, rfl⟩
  unfold metric V5MetricEstimate.validate estimate
  rcases hstate with ⟨rfl, hv, hn, q, rfl, hq⟩ | ⟨rfl, rfl, hn, rfl⟩
  · simp [check, hids, d.support_isDigest, d.metric_isDigest, hv, hn, hq]
    rfl
  · simp [check, hids, d.support_isDigest, d.metric_isDigest, hn]
    rfl

theorem metric_long {name : String} {a : Applicability} {v n den : Option ℚ} {formula : String}
    (hids : maxRows < ids.length) : ∃ e, metric d name a v n den ids formula = .error e := by
  refine ⟨⟨"Input should be less than or equal to 100000"⟩, ?_⟩
  unfold metric V5MetricEstimate.validate estimate
  simp [check, not_le.2 hids]
  rfl

theorem ratioMetric_ok (name : String) (n den : ℚ) (formula : String) (hids : ids.length ≤ maxRows) (hden : 0 ≤ den) :
    ∃ m, ratioMetric d name n den ids formula = .ok m ∧ m.value = safeDiv n den ∧
      (m.applicability = .undefined ↔ safeDiv n den = none) := by
  unfold ratioMetric safeDiv
  by_cases hzero : den = 0
  · rw [if_pos hzero, if_pos hzero]
    obtain ⟨m, hm, hv, ha⟩ := metric_ok (d := d) name none (some n) (some 0) formula hids
      (Or.inr ⟨rfl, rfl, rfl, rfl⟩)
    exact ⟨m, hm, hv, by simp [ha]⟩
  · rw [if_neg hzero, if_neg hzero]
    obtain ⟨m, hm, hv, ha⟩ := metric_ok (d := d) name (some (n / den)) (some n) (some den) formula hids
      (Or.inl ⟨rfl, rfl, rfl, den, rfl, lt_of_le_of_ne hden (Ne.symm hzero)⟩)
    exact ⟨m, hm, hv, by simp [ha]⟩

/-! ### Calibration errors -/

/-- the bin of an index: its bounds, and the index -/
def tenthBin (index : ℕ) : (ℚ × ℚ) × ℕ := (((index : ℚ) / 10, ((index : ℚ) + 1) / 10), index)

theorem tenths_bins : (tenths.zip tenths.tail).zipIdx = (List.range 10).map tenthBin := by decide +kernel

/-- the rows as the other evaluation has them -/
def pairs (rows : List ScoredRow) : List (ℤ × ℚ) := rows.map fun r => (r.label, r.probability)

theorem bin_ok (lower upper : ℚ) (final : Bool) {members : List ScoredRow} (h : members.length ≤ maxRows) :
    V5CalibrationBin.validate d
        { binFields lower upper final members with binSha256 := d.bin (binFields lower upper final members) } =
      .ok { binFields lower upper final members with binSha256 := d.bin (binFields lower upper final members) } := by
  unfold V5CalibrationBin.validate
  cases members with
  | nil => simp [check, d.bin_isDigest, binFields]; rfl
  | cons r members =>
    rw [List.length_cons] at h
    simp [check, d.bin_isDigest, binFields, h]
    rfl

/-- one bin adds the same to both errors -/
theorem addBin_ok {rows : List ScoredRow} (hrows : rows.length ≤ maxRows) (t : Tally) (index : ℕ) :
    ∃ t', addBin d rows 9 t (tenthBin index) = .ok t' ∧ t'.bins.length = t.bins.length + 1 ∧
      t'.weightedGap = binError (pairs rows) t.weightedGap index := by
  have hfilter : (pairs rows).filter (fun r => inBin ((index : ℚ) / 10) (((index : ℚ) + 1) / 10) (decide (index = 9)) r.2)
      = pairs (rows.filter fun r =>
        inBin ((index : ℚ) / 10) (((index : ℚ) + 1) / 10) (decide (index = 9)) r.probability) := by
    unfold pairs
    rw [List.filter_map]
    rfl
  have hle := (List.length_filter_le (fun r : ScoredRow =>
    inBin ((index : ℚ) / 10) (((index : ℚ) + 1) / 10) (decide (index = 9)) r.probability) rows).trans hrows
  unfold addBin binError tenthBin
  simp only [hfilter]
  generalize rows.filter (fun r => inBin ((index : ℚ) / 10) (((index : ℚ) + 1) / 10) (decide (index = 9)) r.probability)
    = members at hle
  rw [bin_ok _ _ _ hle, except_ok_bind]
  cases members with
  | nil => exact ⟨_, rfl, by simp, rfl⟩
  | cons r members =>
    refine ⟨_, rfl, by simp, ?_⟩
    simp only [pairs, List.map_cons, List.map_map, List.length_cons, List.length_map, reduceCtorEq, if_false]
    rw [abs_sub_comm]
    rfl

theorem foldlM_addBin {rows : List ScoredRow} (hrows : rows.length ≤ maxRows) (indices : List ℕ) (t : Tally) :
    ∃ t', (indices.map tenthBin).foldlM (addBin d rows 9) t = .ok t' ∧
      t'.bins.length = t.bins.length + indices.length ∧
      t'.weightedGap = indices.foldl (binError (pairs rows)) t.weightedGap := by
  induction indices generalizing t with
  | nil => exact ⟨t, rfl, rfl, rfl⟩
  | cons index indices ih =>
    obtain ⟨t₁, h₁, hlength₁, hgap₁⟩ := addBin_ok (d := d) hrows t index
    obtain ⟨t₂, h₂, hlength₂, hgap₂⟩ := ih t₁
    refine ⟨t₂, ?_, ?_, ?_⟩
    · rw [List.map_cons, List.foldlM_cons, h₁, except_ok_bind, h₂]
    · rw [hlength₂, hlength₁, List.length_cons]
      omega
    · rw [hgap₂, hgap₁, List.foldl_cons]

/-- **Both calibration errors are one number.** -/
theorem calibration_ok {probabilities : List ℚ} (hsome : labels ≠ [])
    (hprobabilities : probabilities.length = labels.length) (hids : ids.length = labels.length)
    (hunit : ∀ p ∈ probabilities, 0 ≤ p ∧ p ≤ 1) (hrows : ids.length ≤ maxRows) :
    ∃ e, computeV5Calibration d labels (some probabilities) tenths ids true = .ok e ∧
      e.expectedCalibrationError.value = some (expectedCalibrationError labels probabilities) ∧
      e.expectedCalibrationError.applicability = .defined := by
  have hzip : pairs ((probabilities.zip (labels.zip ids)).map fun r => ScoredRow.mk r.1 r.2.1 r.2.2) =
      labels.zip probabilities := by
    unfold pairs
    rw [List.map_map]
    refine List.ext_getElem (by simp; omega) fun i h₁ h₂ => ?_
    simp
  have hlength : ((probabilities.zip (labels.zip ids)).map fun r => ScoredRow.mk r.1 r.2.1 r.2.2).length ≤ maxRows := by
    simp
    omega
  obtain ⟨t, ht, hbins, hgap⟩ := foldlM_addBin (d := d) hlength (List.range 10) {}
  rw [hzip] at hgap
  have hpos : (0 : ℚ) < labels.length := by exact_mod_cast List.length_pos_of_ne_nil hsome
  obtain ⟨ece, hece, hvalue, happ⟩ := metric_ok (d := d) "expected_calibration_error" (some t.weightedGap)
    (some (t.weightedGap * labels.length)) (some (labels.length : ℚ))
    "sum(bin_count/total*absolute_gap)" hrows (Or.inl ⟨rfl, rfl, rfl, _, rfl, hpos⟩)
  obtain ⟨mce, hmce, -, -⟩ := metric_ok (d := d) "maximum_calibration_error" (some t.maximumGap)
    (some t.maximumGap) (some (1 : ℚ))
    "max(bin_absolute_gap)" hrows (Or.inl ⟨rfl, rfl, rfl, _, rfl, one_pos⟩)
  have hten : tenths.length = 11 := rfl
  refine ⟨{ applicability := .defined, boundaries := tenths, bins := t.bins, expectedCalibrationError := ece
            maximumCalibrationError := mce, calibrationSha256 := d.calibration ⟨.defined, tenths, t.bins, ece, mce⟩ },
    ?_, ?_, happ⟩
  · unfold computeV5Calibration
    rw [tenths_bins, show tenths.length - 2 = 9 from rfl]
    have hall : (probabilities.all fun p => decide (0 ≤ p) && decide (p ≤ 1)) = true := by
      rw [List.all_eq_true]
      intro p hp
      simpa using hunit p hp
    simp only [check, hids, hsome, hprobabilities, hall, ne_eq, not_false_eq_true, decide_true, Bool.and_self, if_true,
      Bool.not_true, Bool.false_eq_true, if_false, except_ok_bind, ht, hece, hmce]
    simp only [List.length_nil, Nat.zero_add, List.length_range] at hbins
    unfold V5CalibrationEvidence.validate
    simp only [check, d.calibration_isDigest, if_true, hten, hbins, decide_true, except_ok_bind]
    rfl
  · rw [hvalue, hgap]
    rfl

/-! ### Counts -/

theorem sum_eq_countP (h : ∀ label ∈ labels, label = 0 ∨ label = 1) : labels.sum = (labels.countP (· = 1) : ℕ) := by
  induction labels with
  | nil => rfl
  | cons label labels ih =>
    have hrest := ih fun l hl => h l (List.mem_cons_of_mem label hl)
    rcases h label List.mem_cons_self with rfl | rfl
    · simp [hrest]
    · simp [hrest, add_comm]

theorem length_sub_sum (h : ∀ label ∈ labels, label = 0 ∨ label = 1) :
    (labels.length : ℤ) - labels.sum = (labels.countP (· = 0) : ℕ) := by
  induction labels with
  | nil => rfl
  | cons label labels ih =>
    have hrest := ih fun l hl => h l (List.mem_cons_of_mem label hl)
    rcases h label List.mem_cons_self with rfl | rfl
    · simp
      omega
    · simp
      omega

theorem countRows_le (p : SentinelAction → Bool) (value : ℤ) (actions : List SentinelAction) (labels : List ℤ) :
    countRows p value actions labels ≤ labels.countP (· = value) := by
  induction labels generalizing actions with
  | nil => simp [countRows]
  | cons label labels ih =>
    cases actions with
    | nil => simp [countRows]
    | cons action actions =>
      have hrest := ih actions
      unfold countRows at hrest ⊢
      rw [List.zip_cons_cons, List.countP_cons, List.countP_cons]
      by_cases hl : label = value
      · cases p action <;> simp [hl] <;> omega
      · simp [hl]
        omega

theorem countRows_pos {p : SentinelAction → Bool} {value : ℤ} {actions : List SentinelAction} :
    0 < countRows p value actions labels ↔ ∃ r ∈ actions.zip labels, p r.1 = true ∧ r.2 = value := by
  unfold countRows
  rw [List.countP_pos_iff]
  simp

/-- the harmonic mean of precision and recall, from the counts -/
theorem f1_eq {tp fp fn : ℚ} (htp : 0 < tp) (hfp : 0 ≤ fp) (hfn : 0 ≤ fn) :
    safeDiv (2 * (tp / (tp + fp)) * (tp / (tp + fn))) (tp / (tp + fp) + tp / (tp + fn)) =
      safeDiv (2 * tp) (2 * tp + fp + fn) := by
  have hp : 0 < tp + fp := by linarith
  have hr : 0 < tp + fn := by linarith
  have hsum : tp / (tp + fp) + tp / (tp + fn) ≠ 0 := (add_pos (div_pos htp hp) (div_pos htp hr)).ne'
  have hall : 2 * tp + fp + fn ≠ 0 := by linarith
  unfold safeDiv
  rw [if_neg hsum, if_neg hall]
  congr 1
  field_simp
  ring

/-! ### The two evaluations -/

section Specs

variable (lib : MetricLibrary) {labels : List ℤ} {actions : List SentinelAction} {probabilities : List ℚ}
  {supportIds : List String} {campaigns amounts : ℕ}

theorem Aligned.ne_nil (h : Aligned labels actions probabilities supportIds campaigns amounts) : labels ≠ [] :=
  List.ne_nil_of_mem h.fraud

theorem Aligned.all_unit (h : Aligned labels actions probabilities supportIds campaigns amounts) :
    (probabilities.all fun p => decide (0 ≤ p) && decide (p ≤ 1)) = true := by
  rw [List.all_eq_true]
  intro p hp
  simpa using h.unit p hp

/-- what the evaluation of an arm returns -/
theorem evaluate_ok (h : Aligned labels actions probabilities supportIds campaigns amounts) :
    ∃ r, evaluateV5Arm lib labels actions probabilities campaigns amounts = .ok r ∧
      r.reported = [
        ("recall", safeDiv (countRows detects 1 actions labels) (labels.countP (· = 1))),
        ("precision", safeDiv (countRows detects 1 actions labels)
          (countRows detects 1 actions labels + countRows detects 0 actions labels : ℕ)),
        ("f1", match safeDiv (countRows detects 1 actions labels)
            (countRows detects 1 actions labels + countRows detects 0 actions labels : ℕ),
          safeDiv (countRows detects 1 actions labels) (labels.countP (· = 1)) with
          | some p, some r => safeDiv (2 * p * r) (p + r)
          | _, _ => none),
        ("brier", lib.brierScoreLoss labels probabilities),
        ("expected_calibration_error", some (expectedCalibrationError labels probabilities)),
        ("false_decline_rate", safeDiv (countRows (· = .declineHold) 0 actions labels) (labels.countP (· = 0))),
        ("challenge_rate", safeDiv (countRows (· = .challenge) 0 actions labels) (labels.countP (· = 0))),
        ("review_rate", safeDiv (countRows (· = .reviewHold) 0 actions labels) (labels.countP (· = 0)))] := by
  have hlength : labels.length ≠ 0 := by simpa using h.ne_nil
  have hfraud : labels.countP (· = 1) ≠ 0 := by
    rw [← Nat.pos_iff_ne_zero, List.countP_pos_iff]
    exact ⟨1, h.fraud, by simp⟩
  have hbenign : labels.countP (· = 0) ≠ 0 := by
    rw [← Nat.pos_iff_ne_zero, List.countP_pos_iff]
    exact ⟨0, h.legitimate, by simp⟩
  unfold evaluateV5Arm
  simp only [check, h.actions_length, h.probabilities_length, h.campaigns_eq, h.amounts_eq, hlength, hfraud, hbenign,
    h.all_unit, decide_true, decide_false, Bool.or_self, Bool.and_self, Bool.not_false, if_true, except_ok_bind]
  exact ⟨_, rfl, rfl⟩

/-- what is checked before the first metric -/
theorem Aligned.checked (h : Aligned labels actions probabilities supportIds campaigns amounts) :
    (decide (labels ≠ []) && decide (labels.length = actions.length) && decide (actions.length = supportIds.length)) =
      true ∧ (labels.all fun label => decide (label = 0) || decide (label = 1)) = true := by
  refine ⟨by simp [h.ne_nil, h.actions_length, h.ids_length], ?_⟩
  rw [List.all_eq_true]
  intro label hlabel
  simpa using h.binary label hlabel

/-- too many rows for a metric -/
theorem compute_long (h : Aligned labels actions probabilities supportIds campaigns amounts)
    (hrows : maxRows < labels.length) :
    ∃ e, computeV5BinaryMetrics d lib labels actions (some probabilities) supportIds true = .error e := by
  obtain ⟨haligned, hbinary⟩ := h.checked
  have hids : maxRows < supportIds.length := by rw [h.ids_length]; exact hrows
  have hratio : ∃ e, ratioMetric d "recall" ((countRows detects 1 actions labels : ℤ) : ℚ) labels.sum supportIds
      "detected_fraud_rows/fraud_rows" = .error e := by
    unfold ratioMetric
    split_ifs
    · exact metric_long hids
    · exact metric_long hids
  obtain ⟨e, he⟩ := hratio
  refine ⟨e, ?_⟩
  unfold computeV5BinaryMetrics
  simp only [check, haligned, hbinary, if_true, except_ok_bind, he]
  rfl

/-- what the complete evaluation returns -/
theorem compute_ok (h : Aligned labels actions probabilities supportIds campaigns amounts)
    (hrows : labels.length ≤ maxRows) :
    ∃ metrics, computeV5BinaryMetrics d lib labels actions (some probabilities) supportIds true = .ok metrics ∧
      Reports metrics "recall" (safeDiv (countRows detects 1 actions labels) (labels.countP (· = 1))) ∧
      Reports metrics "precision" (safeDiv (countRows detects 1 actions labels)
        (countRows detects 1 actions labels + countRows detects 0 actions labels : ℕ)) ∧
      Reports metrics "f1" (safeDiv (2 * (countRows detects 1 actions labels : ℚ))
        (2 * countRows detects 1 actions labels + countRows detects 0 actions labels +
          ((labels.countP (· = 1) : ℚ) - countRows detects 1 actions labels))) ∧
      Reports metrics "brier" (some (((probabilities.zip labels).map fun r => (r.1 - (r.2 : ℚ)) ^ 2).sum /
        labels.length)) ∧
      Reports metrics "expected_calibration_error" (some (expectedCalibrationError labels probabilities)) ∧
      Reports metrics "false_decline_rate"
        (safeDiv (countRows (· = .declineHold) 0 actions labels) (labels.countP (· = 0))) ∧
      Reports metrics "challenge_rate"
        (safeDiv (countRows (· = .challenge) 0 actions labels) (labels.countP (· = 0))) ∧
      Reports metrics "review_rate"
        (safeDiv (countRows (· = .reviewHold) 0 actions labels) (labels.countP (· = 0))) := by
  obtain ⟨haligned, hbinary⟩ := h.checked
  have hids : supportIds.length ≤ maxRows := by rw [h.ids_length]; exact hrows
  have hfraud := sum_eq_countP h.binary
  have hlegitimate := length_sub_sum h.binary
  have hpos : (0 : ℚ) < labels.length := by exact_mod_cast List.length_pos_of_ne_nil h.ne_nil
  have hle : (countRows detects 1 actions labels : ℤ) ≤ (labels.countP (· = 1) : ℕ) := by
    exact_mod_cast countRows_le detects 1 actions labels
  have hratio := fun (name formula : String) (n den : ℚ) (hden : 0 ≤ den) =>
    ratioMetric_ok (d := d) name n den formula hids hden
  have hlegitimate0 : (0 : ℚ) ≤ ((labels.length - labels.sum : ℤ) : ℚ) := by
    rw [hlegitimate]
    positivity
  obtain ⟨m₁, h₁, v₁⟩ := hratio "recall" "detected_fraud_rows/fraud_rows"
    ((countRows detects 1 actions labels : ℤ) : ℚ) ((labels.sum : ℤ) : ℚ) (by rw [hfraud]; positivity)
  obtain ⟨m₂, h₂, v₂⟩ := hratio "precision" "detected_fraud_rows/all_detected_rows"
    ((countRows detects 1 actions labels : ℤ) : ℚ)
    (((countRows detects 1 actions labels : ℤ) + (countRows detects 0 actions labels : ℤ) : ℤ) : ℚ) (by positivity)
  obtain ⟨m₃, h₃, v₃⟩ := hratio "f1" "2*tp/(2*tp+fp+fn)" ((2 * (countRows detects 1 actions labels : ℤ) : ℤ) : ℚ)
    ((2 * (countRows detects 1 actions labels : ℤ) + (countRows detects 0 actions labels : ℤ) +
      (labels.sum - (countRows detects 1 actions labels : ℤ)) : ℤ) : ℚ)
    (Int.cast_nonneg (by rw [hfraud]; omega))
  obtain ⟨m₄, h₄, v₄⟩ := hratio "false_decline_rate" "declined_legitimate_rows/legitimate_rows"
    (countRows (· = .declineHold) 0 actions labels) _ hlegitimate0
  obtain ⟨m₅, h₅, v₅⟩ := hratio "challenge_rate" "challenged_legitimate_rows/legitimate_rows"
    (countRows (· = .challenge) 0 actions labels) _ hlegitimate0
  obtain ⟨m₆, h₆, v₆⟩ := hratio "review_rate" "reviewed_legitimate_rows/legitimate_rows"
    (countRows (· = .reviewHold) 0 actions labels) _ hlegitimate0
  obtain ⟨m₇, h₇, -⟩ := hratio "decline_rate" "declined_rows/all_rows" (actions.countP (· = .declineHold))
    labels.length hpos.le
  have hboth : decide (labels.sum ≠ 0 ∧ (labels.length : ℤ) - labels.sum ≠ 0) = true := by
    rw [decide_eq_true_eq, hlegitimate, hfraud]
    have h1 : 0 < labels.countP (· = 1) := List.countP_pos_iff.2 ⟨1, h.fraud, by simp⟩
    have h0 : 0 < labels.countP (· = 0) := List.countP_pos_iff.2 ⟨0, h.legitimate, by simp⟩
    omega
  obtain ⟨m₈, h₈, -, -⟩ := metric_ok (d := d) "pr_auc" (some (lib.averagePrecisionScore labels probabilities))
    (some (lib.averagePrecisionScore labels probabilities)) (some (1 : ℚ))
    "average_precision(labels,probabilities)" hids (Or.inl ⟨rfl, rfl, rfl, _, rfl, one_pos⟩)
  obtain ⟨m₉, h₉, -, -⟩ := metric_ok (d := d) "roc_auc" (some (lib.rocAucScore labels probabilities))
    (some (lib.rocAucScore labels probabilities)) (some (1 : ℚ))
    "roc_auc(labels,probabilities)" hids (Or.inl ⟨rfl, rfl, rfl, _, rfl, one_pos⟩)
  obtain ⟨m₀, h₀, v₀, a₀⟩ := metric_ok (d := d) "brier"
    (some (((probabilities.zip labels).map fun r => (r.1 - (r.2 : ℚ)) ^ 2).sum / labels.length))
    (some ((probabilities.zip labels).map fun r => (r.1 - (r.2 : ℚ)) ^ 2).sum) (some (labels.length : ℚ))
    "sum((probability-label)^2)/all_rows" hids (Or.inl ⟨rfl, rfl, rfl, _, rfl, hpos⟩)
  obtain ⟨e, he, ve, ae⟩ := calibration_ok (d := d) h.ne_nil h.probabilities_length h.ids_length h.unit hids
  refine ⟨(((((Dict.ofList [("recall", m₁), ("precision", m₂), ("f1", m₃), ("false_decline_rate", m₄),
    ("challenge_rate", m₅), ("review_rate", m₆), ("decline_rate", m₇)]).set "pr_auc" m₈).set "roc_auc" m₉).set "brier"
    m₀).set "expected_calibration_error" e.expectedCalibrationError).set "maximum_calibration_error"
    e.maximumCalibrationError, ?_, ⟨m₁, ?_, ?_⟩, ⟨m₂, ?_, ?_⟩, ⟨m₃, ?_, ?_⟩, ⟨m₀, ?_, v₀, by simp [a₀]⟩,
    ⟨e.expectedCalibrationError, ?_, ve, by simp [ae]⟩, ⟨m₄, ?_, ?_⟩, ⟨m₅, ?_, ?_⟩, ⟨m₆, ?_, ?_⟩⟩
  · unfold computeV5BinaryMetrics
    simp only [check, haligned, hbinary, if_true, except_ok_bind, h₁, h₂, h₃, h₄, h₅, h₆, h₇, h₈, h₉, h₀, he, hboth,
      h.probabilities_length, h.all_unit, decide_true, Bool.not_true, Bool.false_eq_true, if_false]
    rfl
  · simp [Dict.get?_set, Dict.ofList]
  · rw [hfraud] at v₁
    exact v₁
  · simp [Dict.get?_set, Dict.ofList]
  · rw [← Nat.cast_add, Int.cast_natCast, Int.cast_natCast] at v₂
    exact v₂
  · simp [Dict.get?_set, Dict.ofList]
  · rw [hfraud] at v₃
    push_cast at v₃
    exact v₃
  · simp [Dict.get?_set]
  · simp [Dict.get?_set]
  · simp [Dict.get?_set, Dict.ofList]
  · rw [hlegitimate, Int.cast_natCast] at v₄
    exact v₄
  · simp [Dict.get?_set, Dict.ofList]
  · rw [hlegitimate, Int.cast_natCast] at v₅
    exact v₅
  · simp [Dict.get?_set, Dict.ofList]
  · rw [hlegitimate, Int.cast_natCast] at v₆
    exact v₆

end Specs

/-- **The two evaluations agree** on labels of both classes exactly when there are not too many rows for a metric and
some fraud row is detected. The Brier score of the library is the mean squared error. -/
theorem metrics_agree_iff (d : MetricDigests) (lib : MetricLibrary)
    (hbrier : ∀ labels probabilities, probabilities.length = labels.length → 0 ∈ labels → 1 ∈ labels →
      (∀ label ∈ labels, label = 0 ∨ label = 1) → (∀ p ∈ probabilities, 0 ≤ p ∧ p ≤ 1) →
        lib.brierScoreLoss labels probabilities =
          some (mean ((labels.zip probabilities).map fun r => ((r.1 : ℚ) - r.2) ^ 2)))
    {labels : List ℤ} {actions : List SentinelAction} {probabilities : List ℚ} {supportIds : List String}
    {campaigns amounts : ℕ} (h : Aligned labels actions probabilities supportIds campaigns amounts) :
    Agree d lib labels actions probabilities supportIds campaigns amounts ↔
      labels.length ≤ maxRows ∧ ∃ r ∈ actions.zip labels, detects r.1 = true ∧ r.2 = 1 := by
  rw [← countRows_pos]
  obtain ⟨r, hr, hreported⟩ := evaluate_ok lib h
  by_cases hrows : labels.length ≤ maxRows
  swap
  · refine iff_of_false ?_ fun hboth => hrows hboth.1
    intro ⟨_, metrics, _, hmetrics, _⟩
    obtain ⟨e, he⟩ := compute_long (d := d) lib h (not_le.1 hrows)
    rw [he] at hmetrics
    cases hmetrics
  obtain ⟨metrics, hmetrics, hrecall, hprecision, hf1, hbrier', hece, hdecline, hchallenge, hreview⟩ :=
    compute_ok (d := d) lib h hrows
  have hagree : Agree d lib labels actions probabilities supportIds campaigns amounts ↔
      ∀ p ∈ r.reported, Reports metrics p.1 p.2 := by
    unfold Agree
    rw [hr, hmetrics]
    simp
  rw [hagree, hreported]
  have hsquares : lib.brierScoreLoss labels probabilities =
      some ((((probabilities.zip labels).map fun r => (r.1 - (r.2 : ℚ)) ^ 2).sum / labels.length : ℚ)) := by
    rw [hbrier labels probabilities h.probabilities_length h.legitimate h.fraud h.binary h.unit]
    unfold mean
    rw [List.length_map, List.length_zip, h.probabilities_length, min_self, ← List.zip_swap labels probabilities,
      List.map_map]
    congr 3
    refine List.map_congr_left fun x _ => ?_
    simp only [Function.comp_apply, Prod.fst_swap, Prod.snd_swap]
    ring
  have hfn : (0 : ℚ) ≤ (labels.countP (· = 1) : ℚ) - countRows detects 1 actions labels := by
    rw [sub_nonneg]
    exact_mod_cast countRows_le detects 1 actions labels
  have hfp : (0 : ℚ) ≤ countRows detects 0 actions labels := by positivity
  have hfraud : 0 < labels.countP (· = 1) := List.countP_pos_iff.2 ⟨1, h.fraud, by simp⟩
  have hfraud' : (0 : ℚ) < labels.countP (· = 1) := by exact_mod_cast hfraud
  simp only [List.mem_cons, List.not_mem_nil, or_false, forall_eq_or_imp, forall_eq, hsquares]
  by_cases htp : countRows detects 1 actions labels = 0
  · -- nothing is detected: one has no F1, the other an F1 of zero
    refine iff_of_false ?_ fun hboth => hboth.2.ne' htp
    intro ⟨_, _, hnone, _⟩
    obtain ⟨m, hm, hvalue, -⟩ := hnone
    obtain ⟨m', hm', hvalue', -⟩ := hf1
    rw [hm] at hm'
    rw [← Option.some.inj hm', hvalue, htp] at hvalue'
    have hden : (2 * ((0 : ℕ) : ℚ) + countRows detects 0 actions labels +
        ((labels.countP (· = 1) : ℚ) - ((0 : ℕ) : ℚ))) ≠ 0 := by
      rw [Nat.cast_zero, mul_zero, zero_add, sub_zero]
      exact (add_pos_of_nonneg_of_pos hfp hfraud').ne'
    have hrec : safeDiv ((0 : ℕ) : ℚ) (labels.countP (· = 1)) = some 0 := by
      unfold safeDiv
      rw [if_neg hfraud'.ne', Nat.cast_zero, zero_div]
    have hf1none : (match safeDiv ((0 : ℕ) : ℚ) ((0 + countRows detects 0 actions labels : ℕ) : ℚ),
        safeDiv ((0 : ℕ) : ℚ) (labels.countP (· = 1)) with
        | some p, some r => safeDiv (2 * p * r) (p + r)
        | _, _ => none) = none := by
      rw [hrec]
      unfold safeDiv
      by_cases hz : ((0 + countRows detects 0 actions labels : ℕ) : ℚ) = 0
      · rw [if_pos hz]
      · rw [if_neg hz]
        simp
    rw [hf1none] at hvalue'
    unfold safeDiv at hvalue'
    rw [if_neg hden] at hvalue'
    cases hvalue'
  · have hpos : 0 < countRows detects 1 actions labels := Nat.pos_of_ne_zero htp
    refine iff_of_true ⟨hrecall, hprecision, ?_, hbrier', hece, hdecline, hchallenge, hreview⟩ ⟨hrows, hpos⟩
    have htp' : (0 : ℚ) < countRows detects 1 actions labels := by exact_mod_cast hpos
    have hmatch := f1_eq htp' hfp hfn
    rw [add_sub_cancel] at hmatch
    have hp : safeDiv (countRows detects 1 actions labels)
        (countRows detects 1 actions labels + countRows detects 0 actions labels : ℕ) =
        some ((countRows detects 1 actions labels : ℚ) /
          (countRows detects 1 actions labels + countRows detects 0 actions labels)) := by
      unfold safeDiv
      rw [Nat.cast_add, if_neg (by positivity)]
    have hr' : safeDiv (countRows detects 1 actions labels) (labels.countP (· = 1)) =
        some ((countRows detects 1 actions labels : ℚ) / labels.countP (· = 1)) := by
      unfold safeDiv
      rw [if_neg hfraud'.ne']
    rw [hp, hr']
    change Reports metrics "f1" (safeDiv _ _)
    rw [hmatch]
    exact hf1

/-! ## Two rows -/

namespace Sample

theorem isDigestText_a : isDigestText (String.ofList (List.replicate 64 'a')) = true := by decide +kernel

/-- one text for everything -/
def digests : MetricDigests where
  support _ := String.ofList (List.replicate 64 'a')
  metric _ := String.ofList (List.replicate 64 'a')
  bin _ := String.ofList (List.replicate 64 'a')
  calibration _ := String.ofList (List.replicate 64 'a')
  support_isDigest _ := isDigestText_a
  metric_isDigest _ := isDigestText_a
  bin_isDigest _ := isDigestText_a
  calibration_isDigest _ := isDigestText_a

/-- the mean squared error; the areas are those of a perfect ranking -/
def library : MetricLibrary where
  averagePrecisionScore _ _ := 1
  rocAucScore _ _ := 1
  brierScoreLoss labels probabilities := some (mean ((labels.zip probabilities).map fun r => ((r.1 : ℚ) - r.2) ^ 2))

theorem aligned (action : SentinelAction) : Aligned [0, 1] [.approve, action] [1 / 10, 4 / 5] ["e0", "e1"] 2 2 := by
  refine ⟨by decide, by decide, by decide, ?_, rfl, rfl, rfl, rfl, rfl⟩
  intro p hp
  rcases List.mem_cons.1 hp with rfl | hp
  · norm_num
  · rw [List.mem_singleton.1 hp]
    norm_num

end Sample

/-- a detected fraud row -/
theorem metrics_agree_two_rows :
    Agree Sample.digests Sample.library [0, 1] [.approve, .challenge] [1 / 10, 4 / 5] ["e0", "e1"] 2 2 ↔
      [(0 : ℤ), 1].length ≤ maxRows ∧
        ∃ r ∈ [SentinelAction.approve, .challenge].zip [(0 : ℤ), 1], detects r.1 = true ∧ r.2 = 1 :=
  metrics_agree_iff Sample.digests Sample.library (fun _ _ _ _ _ _ _ => rfl) (Sample.aligned .challenge)

/-- **Nothing is detected.** The evaluation of the arm has no F1, and the complete evaluation an F1 of zero. -/
theorem undetected_f1_differs :
    (evaluateV5Arm Sample.library [0, 1] [.approve, .approve] [1 / 10, 4 / 5] 2 2).toOption.map
        V5EvaluationResult.f1 = some none ∧
      (computeV5BinaryMetrics Sample.digests Sample.library [0, 1] [.approve, .approve] (some [1 / 10, 4 / 5])
        ["e0", "e1"] true).toOption.bind (fun metrics => (metrics.get? "f1").map fun m => m.value) = some (some 0) := by
  refine ⟨?_, ?_⟩ <;> decide +kernel

end Metrics

end V5

end Apar
