/-
Robustness regimes (`evaluation/regimes.py`): a frozen corpus, the closed parameters of one declared transform, and the
corpus that `derive_regime` makes of the two.

Six transformers rewrite observations and truth in separate passes: controls are merged in, optional references dropped,
availability delayed, times compressed towards the first event of a campaign, benign amounts scaled to cents, and
identities remapped. Times are microseconds; products and quotients are taken in Python's default decimal context.
`uuid5(NAMESPACE_URL, name)` is a parameter, and so is the number of collisions the remapping tries before it gives up
on a name, where the source would go on for ever.

Not modelled: the lineage manifest beside the derived corpus, which digests both corpora.
-/
import Apar.Core.DecimalProducts
import Apar.Evaluation.Netting

namespace Apar

open Exec

namespace Regimes

inductive RegimeKind where
  | prevalenceDilution
  | missingOptional
  | availabilityDelay
  | compressedBursts
  | benignAmountShift
  | coldIdRemap
deriving DecidableEq, Repr

/-- the fields of a `RegimeSpec`, before they are validated -/
structure RegimeFields where
  kind : RegimeKind
  controlCampaignIds : Option (List String) := none
  delaySeconds : Option ℤ := none
  compressionNumerator : Option ℤ := none
  compressionDenominator : Option ℤ := none
  scale : Option Decimal := none
  salt : Option String := none

namespace RegimeFields

/-- the parameters a kind needs -/
def relevant : RegimeKind → List String
  | .prevalenceDilution => ["control_campaign_ids"]
  | .missingOptional => []
  | .availabilityDelay => ["delay_seconds"]
  | .compressedBursts => ["compression_numerator", "compression_denominator"]
  | .benignAmountShift => ["scale"]
  | .coldIdRemap => ["salt"]

/-- the parameters that are given, in order -/
def supplied (s : RegimeFields) : List String :=
  [("control_campaign_ids", s.controlCampaignIds.isSome), ("delay_seconds", s.delaySeconds.isSome),
    ("compression_numerator", s.compressionNumerator.isSome), ("compression_denominator", s.compressionDenominator.isSome),
    ("scale", s.scale.isSome), ("salt", s.salt.isSome)].filterMap fun p => if p.2 then some p.1 else none

/-- `parameters_match_kind` -/
def parametersMatchKind (s : RegimeFields) : Except SimError Unit := do
  check (s.supplied = relevant s.kind) (.valueError "regime has missing or irrelevant parameters")
  match s.kind with
  | .prevalenceDilution => do
    let ids := s.controlCampaignIds.getD []
    check (!ids.isEmpty && !ids.any (· = "")) (.valueError "control campaign IDs must be nonempty strings")
    check (decide ids.Nodup) (.valueError "control campaign IDs must be unique")
    check (ids = sortBy id ids) (.valueError "control campaign IDs must be an exact sorted tuple")
  | .missingOptional => pure ()
  | .availabilityDelay => check (s.delaySeconds.all (0 < ·)) (.valueError "delay_seconds must be a positive integer")
  | .compressedBursts => do
    let numerator := s.compressionNumerator.getD 0
    let denominator := s.compressionDenominator.getD 0
    check (0 < numerator && 0 < denominator) (.valueError "compression values must be positive integers")
    check (numerator < denominator) (.valueError "compression numerator must be less than denominator")
  | .benignAmountShift =>
    check (s.scale.all fun d => !Decimal.ble d 0) (.valueError "scale must be finite and greater than zero")
  | .coldIdRemap => check (s.salt.all (· ≠ "")) (.valueError "salt must be a nonempty string")

end RegimeFields

/-- `RegimeSpec`: parameters that match their kind -/
structure RegimeSpec extends RegimeFields where
  valid : toRegimeFields.parametersMatchKind = .ok ()

structure CorpusManifest where
  profileId : String
  runIds : List String
  runLineageDigests : List String
  observationCount : ℕ
  truthCount : ℕ

structure FrozenCorpus where
  observations : List ObservedEvent
  truth : List TruthRow
  manifest : CorpusManifest

/-- the observations by event id: of two with one id, the later -/
def FrozenCorpus.observationById (c : FrozenCorpus) : Dict String ObservedEvent :=
  Dict.ofList (c.observations.map fun e => (e.eventId, e))

/-! ## Times -/

/-- `datetime.min` and `datetime.max`, in UTC -/
def minTime : Time := -62135596800000000
def maxTime : Time := 253402300799999999

/-- `value + timedelta(microseconds=delta)` -/
def shiftTime (value : Time) (delta : ℤ) : Except SimError Time :=
  if minTime ≤ value + delta ∧ value + delta ≤ maxTime then .ok (value + delta)
  else .error (.overflowError "date value out of range")

/-! ## Prevalence dilution -/

/-- `_prevalence_dilution` -/
def prevalenceDilution (corpus : FrozenCorpus) (controlCampaignIds : List String) (control : Option FrozenCorpus) :
    Except SimError FrozenCorpus :=
  match control with
  | none => .error (.valueError "prevalence dilution requires an exact control_corpus")
  | some control => do
    check (controlCampaignIds.all fun c => control.truth.any fun row => row.campaignId = c)
      (.valueError "control_corpus is missing a requested campaign")
    let selectedTruth := control.truth.filter fun row => controlCampaignIds.contains row.campaignId
    check (!selectedTruth.any TruthRow.isFraud) (.valueError "prevalence controls must be entirely benign")
    let selectedPayments := selectedTruth.map TruthRow.paymentId
    check (decide selectedPayments.Nodup) (.valueError "control truth contains duplicate payment IDs")
    let selectedObservations := control.observations.filter fun e => selectedPayments.contains e.paymentId
    check (selectedTruth.all fun t =>
        ((selectedObservations.filter fun e => e.paymentId = t.paymentId).map ObservedEvent.eventId).toFinset =
          t.lifecycleEventIds.toFinset)
      (.valueError "selected observation does not resolve to selected truth lifecycle")
    check (decide (selectedObservations.map ObservedEvent.eventId).Nodup &&
        !corpus.observations.any fun e => (selectedObservations.map ObservedEvent.eventId).contains e.eventId)
      (.valueError "event ID collision while merging controls")
    check (!corpus.truth.any fun row => selectedPayments.contains row.paymentId)
      (.valueError "payment ID collision while merging controls")
    check (!corpus.truth.any fun row => controlCampaignIds.contains row.campaignId)
      (.valueError "campaign ID collision while merging controls")
    let observations := sortBy ObservedEvent.eventId (corpus.observations ++ selectedObservations)
    let truth := sortBy TruthRow.eventId (corpus.truth ++ selectedTruth)
    pure ⟨observations, truth,
      { profileId := corpus.manifest.profileId
        runIds := corpus.manifest.runIds ++ control.manifest.runIds
        runLineageDigests := corpus.manifest.runLineageDigests ++ control.manifest.runLineageDigests
        observationCount := observations.length
        truthCount := truth.length }⟩

/-! ## Compressed bursts -/

/-- `_truth_by_payment` -/
def truthByPayment (truth : List TruthRow) : Except SimError (Dict String TruthRow) :=
  truth.foldlM (fun result row => do
    check (decide (row.paymentId ∉ result.keys)) (.valueError "truth contains duplicate payment IDs")
    pure (result.set row.paymentId row)) ∅

/-- the earliest event of a campaign, after one more observation -/
def anchor (campaignByPayment : Dict String String) (anchors : Dict String Time) (e : ObservedEvent) :
    Except SimError (Dict String Time) :=
  match campaignByPayment.get? e.paymentId with
  | none => .error (.valueError "observation does not resolve to evaluator truth")
  | some campaign =>
    match anchors.get? campaign with
    | none => .ok (anchors.set campaign e.eventTime)
    | some t => .ok (if e.eventTime < t then anchors.set campaign e.eventTime else anchors)

/-- microseconds times the ratio, to the nearest microsecond -/
def compressed (numerator denominator micros : ℤ) : Except SimError ℤ :=
  match Decimal.div 28 (Decimal.mul .default ⟨micros, 0⟩ ⟨numerator, 0⟩) ⟨denominator, 0⟩ with
  | none => .error .invalidOperation
  | some q =>
    match q.quantize .default 0 with
    | none => .error .invalidOperation
    | some d => .ok d.coeff

/-- `shifted` of `_compressed_bursts` -/
def shifted (numerator denominator : ℤ) (anchors : Dict String Time) (value : Time) (campaign : String) :
    Except SimError Time :=
  match anchors.get? campaign with
  | none => .error .keyError
  | some t => do
    let scaled ← compressed numerator denominator (value - t)
    shiftTime t scaled

/-- a missing time stays missing -/
def shiftedOption (shift : Time → Except SimError Time) : Option Time → Except SimError (Option Time)
  | none => .ok none
  | some t => some <$> shift t

/-- `_compressed_bursts` -/
def compressedBursts (corpus : FrozenCorpus) (numerator denominator : ℤ) : Except SimError FrozenCorpus := do
  let truthByPayment ← truthByPayment corpus.truth
  let campaignByPayment := Dict.ofList (truthByPayment.items.map fun p => (p.1, p.2.campaignId))
  let anchors ← corpus.observations.foldlM (anchor campaignByPayment) ∅
  let observations ← corpus.observations.mapM fun row => do
    let campaign := campaignByPayment.getD row.paymentId ""
    let eventTime ← shifted numerator denominator anchors row.eventTime campaign
    let availableAt ← shifted numerator denominator anchors row.availableAt campaign
    let decisionAt ← shiftedOption (shifted numerator denominator anchors · campaign) row.decisionAt
    pure { row with eventTime := eventTime, availableAt := availableAt, decisionAt := decisionAt }
  let truth ← corpus.truth.mapM fun row => do
    let firstSettlementAt ← shiftedOption (shifted numerator denominator anchors · row.campaignId) row.firstSettlementAt
    let labelMatureAt ← shifted numerator denominator anchors row.labelMatureAt row.campaignId
    pure { row with firstSettlementAt := firstSettlementAt, labelMatureAt := labelMatureAt }
  pure ⟨observations, truth, corpus.manifest⟩

/-! ## Benign amounts -/

/-- `scaled` of `_benign_amount_shift`: to the nearest cent -/
def scaled (scale value : Decimal) : Except SimError Decimal :=
  match (Decimal.mul .default value scale).quantize .default (-2) with
  | none => .error .invalidOperation
  | some d => .ok d

/-- `_benign_amount_shift` -/
def benignAmountShift (corpus : FrozenCorpus) (scale : Decimal) : Except SimError FrozenCorpus := do
  let benignPayments := (corpus.truth.filter fun row => !row.isFraud).map TruthRow.paymentId
  let observations ← corpus.observations.mapM fun row =>
    if benignPayments.contains row.paymentId then do
      let amount ← scaled scale row.amount
      pure { row with amount := amount }
    else pure row
  let truth ← corpus.truth.mapM fun row =>
    if row.isFraud then pure row
    else do
      let netSettledValue ← scaled scale row.netSettledValue
      pure { row with netSettledValue := netSettledValue }
  pure ⟨observations, truth, corpus.manifest⟩

/-! ## Cold identities -/

section coldIds

variable (uuid5 : String → String) (salt : String)

/-- the name of an identity's candidate at an attempt -/
def coldName (identity : String) (attempt : ℕ) : String :=
  "apar:" ++ salt ++ ":" ++ identity ++
    if attempt = 0 then "" else ":collision:" ++ String.ofList (Decimal.natText attempt)

/-- the first candidate from an attempt on that is not taken -/
def coldCandidate (taken : List String) (identity : String) : ℕ → ℕ → Option String
  | 0, _ => none
  | fuel + 1, attempt =>
    let candidate := uuid5 (coldName salt identity attempt)
    if taken.contains candidate then coldCandidate taken identity fuel (attempt + 1) else some candidate

/-- the identities of the observations -/
def corpusIdentities (observations : List ObservedEvent) : List String :=
  observations.flatMap fun row => row.actorId :: row.counterpartyId :: row.optionalRefs.values

/-- one identity is mapped -/
def mapIdentity (fuel : ℕ) (identities : List String) (mapping : Dict String String) (identity : String) :
    Except SimError (Dict String String) :=
  match coldCandidate uuid5 salt (identities ++ mapping.values) identity fuel 0 with
  | none => .error .external
  | some candidate => .ok (mapping.set identity candidate)

/-- the mapping of the identities, in order -/
def coldMapping (fuel : ℕ) (observations : List ObservedEvent) : Except SimError (Dict String String) :=
  let identities := corpusIdentities observations
  (sortedSet identities).foldlM (mapIdentity uuid5 salt fuel identities) ∅

/-- `mapping[identity]` -/
def mapped (mapping : Dict String String) (identity : String) : Except SimError String :=
  match mapping.get? identity with
  | none => .error .keyError
  | some candidate => .ok candidate

/-- an observation under the mapping -/
def remapped (mapping : Dict String String) (row : ObservedEvent) : Except SimError ObservedEvent := do
  let actorId ← mapped mapping row.actorId
  let counterpartyId ← mapped mapping row.counterpartyId
  let optionalRefs ← (sortBy Prod.fst row.optionalRefs.items).mapM fun (name, value) => do
    let candidate ← mapped mapping value
    pure (name, candidate)
  pure { row with actorId := actorId, counterpartyId := counterpartyId, optionalRefs := Dict.ofList optionalRefs }

/-- `_cold_id_remap` -/
def coldIdRemap (fuel : ℕ) (corpus : FrozenCorpus) : Except SimError FrozenCorpus := do
  let mapping ← coldMapping uuid5 salt fuel corpus.observations
  let observations ← corpus.observations.mapM (remapped mapping)
  pure ⟨observations, corpus.truth, corpus.manifest⟩

end coldIds

/-! ## Derivation -/

/-- `derive_regime`: the derived corpus -/
def deriveRegime (uuid5 : String → String) (fuel : ℕ) (corpus : FrozenCorpus) (spec : RegimeSpec)
    (control : Option FrozenCorpus) : Except SimError FrozenCorpus := do
  check (spec.kind = .prevalenceDilution || control.isNone) (.valueError "control_corpus is irrelevant to this regime")
  match spec.kind with
  | .prevalenceDilution => prevalenceDilution corpus (spec.controlCampaignIds.getD []) control
  | .missingOptional =>
    pure { corpus with observations := corpus.observations.map fun row => { row with optionalRefs := ∅ } }
  | .availabilityDelay => do
    let delta := spec.delaySeconds.getD 0 * 1000000
    -- `timedelta(seconds=...)`
    check (delta < 1000000000 * 86400000000) (.overflowError "days=%d; must have magnitude <= 999999999")
    let observations ← corpus.observations.mapM fun row =>
      if row.isDecisionPoint then pure row
      else do
        let availableAt ← shiftTime row.availableAt delta
        pure { row with availableAt := availableAt }
    pure { corpus with observations := observations }
  | .compressedBursts =>
    compressedBursts corpus (spec.compressionNumerator.getD 1) (spec.compressionDenominator.getD 4)
  | .benignAmountShift => benignAmountShift corpus (spec.scale.getD ⟨125, -2⟩)
  | .coldIdRemap => coldIdRemap uuid5 (spec.salt.getD "defense-v1-cold-remap") fuel corpus

end Regimes

end Apar
