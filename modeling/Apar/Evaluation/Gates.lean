/-
Promotion gates (`evaluation/gates.py`): the hard blockers of every defense arm and the choice of a champion.

A result matrix has one replay result for each arm and evaluation view. `evaluatePromotionGates` collects the failed gate
codes of the arms, then promotes the layered hybrid, retains a comparator or promotes nothing. Money is subtracted in
the decimal128 context; the order of the retained comparators negates money in Python's default context.

Not modelled: the signatures and digests that verify a matrix (its rows are given here), and the fields of a result that
the gates do not read.
-/
import Mathlib.Data.String.Basic
import Apar.Core.DecimalProducts
import Apar.Core.Floats
import Apar.Contracts.Event

namespace Apar

open Exec

namespace Gates

inductive DefenseArm where
  | rulesOnly
  | gbdtOnly
  | layeredHybrid
deriving DecidableEq, Repr

namespace DefenseArm

/-- `tuple(DefenseArm)` -/
def all : List DefenseArm := [rulesOnly, gbdtOnly, layeredHybrid]

/-- `tuple(DefenseArm).index(arm)` -/
def index : DefenseArm → ℕ
  | rulesOnly => 0
  | gbdtOnly => 1
  | layeredHybrid => 2

def value : DefenseArm → String
  | rulesOnly => "rules_only"
  | gbdtOnly => "gbdt_only"
  | layeredHybrid => "layered_hybrid"

end DefenseArm

inductive EvaluationKind where
  | chronological
  | coldEntity
  | heldFamily
  | regime
  | hidden
deriving DecidableEq, Repr

/-- `tuple(EvaluationKind).index(kind)` -/
def EvaluationKind.index : EvaluationKind → ℕ
  | chronological => 0
  | coldEntity => 1
  | heldFamily => 2
  | regime => 3
  | hidden => 4

structure EvaluationDescriptor where
  kind : EvaluationKind
  value : String
deriving DecidableEq, Repr

def families : List String :=
  ["agentic_intent_abuse", "app_scam_mule", "card_testing_cnp", "synthetic_merchant_refund"]

def regimes : List String :=
  ["prevalence_dilution", "missing_optional", "availability_delay", "compressed_bursts", "benign_amount_shift",
    "cold_id_remap"]

def entityCohorts : List String :=
  ["cold_actor", "cold_counterparty", "cold_pair", "warm_within_campaign", "returning_prior_campaign"]

/-- `_required_descriptors` -/
def requiredDescriptors : List EvaluationDescriptor :=
  [⟨.chronological, "development"⟩, ⟨.hidden, "hidden"⟩] ++ families.map (⟨.heldFamily, ·⟩) ++
    regimes.map (⟨.regime, ·⟩) ++ entityCohorts.map (⟨.coldEntity, ·⟩)

structure SlicePerformance (F : Type) where
  kind : String
  value : String
  recallRate : Option F

/-- `RateEvidence`: a rate, undefined over nothing -/
structure RateEvidence (F : Type) where
  value : Option F
  defined : Bool

/-- `money_is_exact_nonnegative_cents` -/
def moneyIsCents (value : Decimal) : Bool :=
  Decimal.ble 0 value && (value.quantize .decimal128 (-2)).any value.numEq

/-- the metrics that promotion reads; money is in whole cents -/
structure PromotionMetrics (F : Type) where
  rowCount : ℕ
  ece : Option F
  p95LatencyMs : Option F
  preventableSettledValue : Decimal
  reviewCaseCount : ℕ
  challengeRate : F
  falseDecline : RateEvidence F
  reviewCaseRate : F
  slicePerformance : List (SlicePerformance F)
  valid : moneyIsCents preventableSettledValue = true

structure AssuranceEvidence where
  leakagePassed : Bool
  parityPassed : Bool
  artifactSignatureValid : Bool
  rollbackAvailable : Bool
  hiddenAccessClean : Bool
  campaignFamilyOwnershipValid : Bool

inductive CandidateBundleRole where
  | pooled
  | heldFamilyLofo
deriving DecidableEq, Repr

structure CandidateRoleEvidence where
  role : CandidateBundleRole
  heldFamily : Option String
  bundleId : String
  bundleManifestDigest : String
  defenderTopRefDigest : String
  thresholdSetDigest : String
  roleDigest : String

/-- `ReplayResult`: what the gates read of it; `evaluationLineageDigest` is `evaluation_lineage.lineage_digest` -/
structure ReplayResult (F : Type) where
  arm : DefenseArm
  evaluation : EvaluationDescriptor
  evaluationLineageDigest : String
  candidateRole : CandidateRoleEvidence
  decisionEventIds : List String
  decisionRowsDigest : String
  commonIntegrityDigest : String
  thresholdReportDigest : String
  thresholdSetDigest : String
  bundleManifestDigest : String
  caseCallbackDigest : String
  evaluationContextDigest : String
  hiddenPublicProofId : Option String
  metrics : PromotionMetrics F
  assurance : AssuranceEvidence
  failure : Bool
  resultDigest : String

structure GateLimits (F : Type) where
  challengeRateMax : F
  falseDeclineRateMax : F
  reviewCaseRateMax : F
  minimumFamilyRecall : F
  maximumEce : F
  maximumP95LatencyMs : F
  maximumSliceRecallRegression : F
  minimumValueImprovement : Decimal

variable {F : Type} [PyFloat F]

/-- the validators of `GateConfig`: rates between zero and one, and an improvement of exactly one cent -/
def GateLimits.validate (c : GateLimits F) : Except SimError Unit := do
  check (c.minimumValueImprovement.numEq ⟨1, -2⟩)
    (.valueError "minimum value improvement must be the exact frozen cent")
  let zero : F := PyFloat.ofInt 0
  let one : F := PyFloat.ofInt 1
  check ([c.challengeRateMax, c.falseDeclineRateMax, c.reviewCaseRateMax, c.minimumFamilyRecall, c.maximumEce,
      c.maximumSliceRecallRegression].all fun x => !PyFloat.lt x zero && !PyFloat.lt one x)
    (.valueError "gate rates must be in [0, 1]")
  check (!PyFloat.lt c.maximumP95LatencyMs zero) (.valueError "maximum p95 latency must be nonnegative")

/-- `GateConfig` -/
structure GateConfig (F : Type) [PyFloat F] extends GateLimits F where
  valid : toGateLimits.validate = .ok ()

/-! ## Results -/

/-- the place of a result: kind, value and arm -/
def resultKey (row : ReplayResult F) : ℕ ×ₗ String ×ₗ ℕ :=
  toLex (row.evaluation.kind.index, toLex (row.evaluation.value, row.arm.index))

/-- `_validated_results` -/
def validatedResults (results : List (ReplayResult F)) : Except SimError (List (ReplayResult F)) := do
  check (!results.isEmpty && decide (results.length ≤ 10000))
    (.valueError "replay results must be a bounded nonempty exact tuple")
  check (decide (results.map fun row => (row.arm, row.evaluation)).Nodup)
    (.valueError "replay arm/evaluation keys must be unique")
  pure (sortBy resultKey results)

/-! ## Hard blockers -/

/-- a limit exceeded, or a value missing -/
def exceeds (value : Option F) (limit : F) : Bool := value.elim true fun x => PyFloat.lt limit x

/-- the recall of the last slice of a kind and value -/
def sliceRecall (metrics : PromotionMetrics F) (kind value : String) : Option F :=
  ((metrics.slicePerformance.filter fun s => s.kind = kind && s.value = value).getLast?).bind SlicePerformance.recallRate

/-- the family recall floor that a view asks for -/
def familyFloorFailed (row : ReplayResult F) (floor : F) : Bool :=
  let below (families : List String) : Bool :=
    families.any fun family => (sliceRecall row.metrics "family" family).elim true fun x => PyFloat.lt x floor
  match row.evaluation.kind with
  | .chronological | .hidden => below families
  | .heldFamily => below [row.evaluation.value]
  | _ => row.metrics.slicePerformance.any fun s =>
      s.kind = "family" && (sliceRecall row.metrics "family" s.value).any fun x => PyFloat.lt x floor

/-- the codes one result adds in `_hard_failure_codes` -/
def rowCodes (config : GateConfig F) (row : ReplayResult F) : List String :=
  let a := row.assurance
  let m := row.metrics
  let code (failed : Bool) (text : String) : List String := if failed then [text] else []
  code (!a.leakagePassed) "FEATURE_LEAKAGE" ++ code (!a.parityPassed) "FEATURE_PARITY" ++
    code (!a.artifactSignatureValid) "ARTIFACT_SIGNATURE" ++ code (!a.rollbackAvailable) "ROLLBACK_MISSING" ++
    code (!a.hiddenAccessClean) "HIDDEN_ACCESS" ++
    code (!a.campaignFamilyOwnershipValid) "CAMPAIGN_FAMILY_OWNERSHIP" ++ code row.failure "MODEL_FAILURE" ++
    if m.rowCount = 0 then code (row.evaluation.kind ≠ .coldEntity) "EVALUATION_COVERAGE"
    else
      code (!m.falseDecline.defined) "FALSE_DECLINE_COVERAGE" ++
        code (PyFloat.lt config.challengeRateMax m.challengeRate ||
          m.falseDecline.value.any (fun x => PyFloat.lt config.falseDeclineRateMax x) ||
          PyFloat.lt config.reviewCaseRateMax m.reviewCaseRate) "OPERATING_BUDGET" ++
        code (exceeds m.ece config.maximumEce) "CALIBRATION_ECE" ++
        code (exceeds m.p95LatencyMs config.maximumP95LatencyMs) "P95_LATENCY" ++
        code (familyFloorFailed row config.minimumFamilyRecall) "PER_FAMILY_RECALL"

/-- `_hard_failure_codes` -/
def hardFailureCodes (config : GateConfig F) (rows : List (ReplayResult F)) : List String :=
  (if (rows.map ReplayResult.evaluation).toFinset = requiredDescriptors.toFinset then [] else ["EVALUATION_COVERAGE"]) ++
    rows.flatMap (rowCodes config)

/-- `_evaluation_matrix_is_complete` -/
def evaluationMatrixIsComplete (rows : List (ReplayResult F)) : Bool :=
  (rows.map fun row => (row.arm, row.evaluation)).toFinset =
    (DefenseArm.all.flatMap fun arm => requiredDescriptors.map fun d => (arm, d)).toFinset

/-- what all results of one view have in common -/
def lineageKey (row : ReplayResult F) : List String × List String × Option String :=
  (row.decisionEventIds, [row.decisionRowsDigest, row.evaluationLineageDigest, row.candidateRole.roleDigest,
    row.commonIntegrityDigest, row.bundleManifestDigest, row.thresholdSetDigest, row.caseCallbackDigest,
    row.evaluationContextDigest], row.hiddenPublicProofId)

/-- `_evaluation_lineage_is_exact` -/
def evaluationLineageIsExact (rows : List (ReplayResult F)) : Bool :=
  (rows.all fun row => rows.all fun row' =>
    row'.arm ≠ row.arm || row'.bundleManifestDigest ≠ row.bundleManifestDigest ||
      row'.thresholdSetDigest ≠ row.thresholdSetDigest || row'.thresholdReportDigest = row.thresholdReportDigest) &&
  rows.all fun row =>
    let descriptorRows := rows.filter fun row' => row'.evaluation = row.evaluation
    (DefenseArm.all.all fun arm => descriptorRows.any fun row' => row'.arm = arm) &&
      descriptorRows.all fun row' => lineageKey row' = lineageKey row

/-- the identity of a candidate bundle -/
def candidateIdentity (row : ReplayResult F) : List String :=
  [row.candidateRole.bundleId, row.candidateRole.bundleManifestDigest, row.candidateRole.defenderTopRefDigest,
    row.candidateRole.thresholdSetDigest]

/-- the role that a view's candidate must have -/
def roleMatches (row : ReplayResult F) : Bool :=
  if row.evaluation.kind = .heldFamily then
    row.candidateRole.role = .heldFamilyLofo && row.candidateRole.heldFamily = some row.evaluation.value
  else row.candidateRole.role = .pooled && row.candidateRole.heldFamily.isNone

/-- `_candidate_roles_are_exact` -/
def candidateRolesAreExact (rows : List (ReplayResult F)) : Bool :=
  let pooled := ((rows.filter fun row => row.evaluation.kind ≠ .heldFamily).map candidateIdentity).dedup
  let lofo := families.map fun family =>
    ((rows.filter fun row => row.evaluation = ⟨.heldFamily, family⟩).map candidateIdentity).dedup
  rows.all roleMatches && pooled.length == 1 && lofo.all (fun ids => ids.length == 1) &&
    decide lofo.flatten.Nodup && pooled.all fun id => !lofo.flatten.contains id

/-- the result of an arm on a view -/
def resultOf (rows : List (ReplayResult F)) (arm : DefenseArm) (d : EvaluationDescriptor) : Option (ReplayResult F) :=
  rows.find? fun row => row.arm = arm && row.evaluation = d

/-- the greatest of some floats -/
def maxOf : List F → Option F
  | [] => none
  | x :: xs => some (xs.foldl PyFloat.max x)

/-- `_apply_slice_regression`: a slice of the hybrid that falls behind a comparator's -/
def sliceRegression (config : GateConfig F) (rows : List (ReplayResult F)) : Bool :=
  (rows.filter fun row => row.arm = .layeredHybrid).any fun hybrid =>
    match resultOf rows .rulesOnly hybrid.evaluation, resultOf rows .gbdtOnly hybrid.evaluation with
    | some rules, some gbdt =>
      hybrid.metrics.slicePerformance.any fun s =>
        let comparators := ((rules.metrics.slicePerformance ++ gbdt.metrics.slicePerformance).filter fun s' =>
          s'.kind = s.kind && s'.value = s.value).filterMap SlicePerformance.recallRate
        (maxOf comparators).any fun best =>
          s.recallRate.elim true fun x => PyFloat.lt config.maximumSliceRecallRegression (best - x)
    | _, _ => false

/-- the failed gate codes of an arm -/
def armCodes (config : GateConfig F) (rows : List (ReplayResult F)) (arm : DefenseArm) : List String :=
  hardFailureCodes config (rows.filter fun row => row.arm = arm) ++
    (if evaluationMatrixIsComplete rows then [] else ["EVALUATION_COVERAGE"]) ++
    (if evaluationLineageIsExact rows then [] else ["EVALUATION_LINEAGE"]) ++
    (if candidateRolesAreExact rows then [] else ["CANDIDATE_ROLE"]) ++
    if arm = .layeredHybrid && sliceRegression config rows then ["SLICE_RECALL_REGRESSION"] else []

/-! ## The champion -/

/-- `_hybrid_qualifies` -/
def hybridQualifies (config : GateConfig F) (hybrid : PromotionMetrics F) (comparators : List (PromotionMetrics F)) : Bool :=
  let improvements := comparators.map fun c =>
    Decimal.sub .decimal128 hybrid.preventableSettledValue c.preventableSettledValue
  if improvements.all (Decimal.ble config.minimumValueImprovement) then true
  else
    let best := comparators.filter fun c =>
      comparators.all fun c' => Decimal.ble c'.preventableSettledValue c.preventableSettledValue
    (best.head?.any fun c => Decimal.ble (Decimal.sub .decimal128 c.preventableSettledValue hybrid.preventableSettledValue)
        config.minimumValueImprovement) &&
      best.all fun c => hybrid.reviewCaseCount < c.reviewCaseCount

/-- `-row.metrics.preventable_settled_value`, in the default context -/
def negatedValue (row : ReplayResult F) : Decimal := Decimal.fix .default row.metrics.preventableSettledValue.neg

/-- the order of the retained comparators: value down, review cases up, arm -/
def retainedBefore (a b : ReplayResult F) : Bool :=
  !Decimal.ble (negatedValue b) (negatedValue a) ||
    (negatedValue a).numEq (negatedValue b) &&
      (decide (a.metrics.reviewCaseCount < b.metrics.reviewCaseCount) ||
        decide (a.metrics.reviewCaseCount = b.metrics.reviewCaseCount) && decide (a.arm.index < b.arm.index))

/-- `min` of some comparators -/
def bestComparator : List (ReplayResult F) → Option (ReplayResult F)
  | [] => none
  | row :: rows => some (rows.foldl (fun best row => if retainedBefore row best then row else best) row)

inductive ChampionStatus where
  | promoted
  | retained
  | noPromotion
deriving DecidableEq, Repr

def ChampionStatus.value : ChampionStatus → String
  | promoted => "promoted"
  | retained => "retained"
  | noPromotion => "no_promotion"

structure ArmGateResult where
  arm : DefenseArm
  passed : Bool
  failedGateCodes : List String
deriving DecidableEq, Repr

structure ChampionDecision where
  status : ChampionStatus
  champion : Option DefenseArm
  failedGateCodes : List String
  armGateResults : List ArmGateResult
  evaluatedResultDigests : List String
  decisionDigest : String
deriving DecidableEq, Repr

/-- the JSON document of a decision, without its digest -/
def ChampionDecision.document (d : ChampionDecision) : Json :=
  .obj [("schema_version", .str "1.0.0"), ("status", .str d.status.value),
    ("champion", (d.champion.map fun arm => Json.str arm.value).getD .null),
    ("failed_gate_codes", .arr (d.failedGateCodes.map .str)),
    ("arm_gate_results", .arr (d.armGateResults.map fun r => .obj [("arm", .str r.arm.value), ("passed", .bool r.passed),
      ("failed_gate_codes", .arr (r.failedGateCodes.map .str))])),
    ("evaluated_result_digests", .arr (d.evaluatedResultDigests.map .str))]

/-- the chronological result of an arm -/
def primary (rows : List (ReplayResult F)) (arm : DefenseArm) : Option (ReplayResult F) :=
  rows.find? fun row => row.arm = arm && row.evaluation.kind = .chronological

/-- the champion of ordered results -/
def chooseChampion (config : GateConfig F) (rows : List (ReplayResult F)) : ChampionStatus × Option DefenseArm :=
  let passes (arm : DefenseArm) : Bool := (armCodes config rows arm).isEmpty
  match evaluationMatrixIsComplete rows, primary rows .layeredHybrid, primary rows .rulesOnly, primary rows .gbdtOnly with
  | true, some hybrid, some rules, some gbdt =>
    if passes .layeredHybrid && hybridQualifies config hybrid.metrics [rules.metrics, gbdt.metrics] then
      (.promoted, some .layeredHybrid)
    else
      match bestComparator ([rules, gbdt].filter fun row => passes row.arm) with
      | some best => (.retained, some best.arm)
      | none => (.noPromotion, none)
  | _, _, _, _ => (.noPromotion, none)

variable [Sha256]

/-- `evaluate_promotion_gates`, of verified results -/
def evaluatePromotionGates (results : List (ReplayResult F)) (config : GateConfig F) :
    Except SimError ChampionDecision := do
  let rows ← validatedResults results
  let (status, champion) := chooseChampion config rows
  let decision : ChampionDecision :=
    { status := status
      champion := champion
      failedGateCodes := sortedSet (DefenseArm.all.flatMap (armCodes config rows))
      armGateResults := DefenseArm.all.map fun arm =>
        ⟨arm, (armCodes config rows arm).isEmpty, sortedSet (armCodes config rows arm)⟩
      evaluatedResultDigests := sortBy id (rows.map ReplayResult.resultDigest)
      decisionDigest := "" }
  pure { decision with decisionDigest := Sha256.hexdigest decision.document }

end Gates

end Apar
