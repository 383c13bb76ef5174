/-
Chronological partitions of a frozen corpus (`evaluation/splits.py`): whole campaigns go to the window of their first
decision, and every decision is annotated with what was known of its entities before it.

A dictionary over the four partition names is a function of the name. The decimal context is the default one.
-/
import Apar.Core.DecimalText
import Apar.Core.Grouping
import Apar.Core.Sweep
import Apar.Core.Text
import Apar.Evaluation.Regimes

namespace Apar

open Exec
open Regimes (FrozenCorpus)

namespace Splits

/-! ## Contracts -/

inductive PartitionName where
  | train
  | calibratorFit
  | threshold
  | development
deriving DecidableEq, Repr

namespace PartitionName

def value : PartitionName → String
  | train => "train"
  | calibratorFit => "calibrator_fit"
  | threshold => "threshold"
  | development => "development"

/-- `_PARTITION_NAMES` -/
def all : List PartitionName := [train, calibratorFit, threshold, development]

/-- the populations that a defender is fitted on -/
def fitting : PartitionName → Bool
  | development => false
  | _ => true

theorem mem_all (name : PartitionName) : name ∈ all := by cases name <;> decide

theorem all_nodup : all.Nodup := by decide

end PartitionName

/-- the declared families -/
def families : List String := ["agentic_intent_abuse", "app_scam_mule", "card_testing_cnp", "synthetic_merchant_refund"]

/-- `SplitConfig` -/
structure SplitConfig where
  trainEnd : Time
  calibratorFitEnd : Time
  thresholdEnd : Time
  developmentEnd : Time
  heldOutFamily : Option String
  increasing : trainEnd < calibratorFitEnd ∧ calibratorFitEnd < thresholdEnd ∧ thresholdEnd < developmentEnd
  declared : ∀ f, heldOutFamily = some f → f ∈ families

/-- `config.model_copy(update={"held_out_family": family})` -/
def SplitConfig.holdOut (config : SplitConfig) (family : String) (h : family ∈ families) : SplitConfig :=
  { config with heldOutFamily := some family, declared := fun _ hf => Option.some.inj hf ▸ h }

theorem declared_none : ∀ f : String, none = some f → f ∈ families := by
  intro f hf
  cases hf

/-- the configuration with the same cutoffs and no held-out family -/
def SplitConfig.unheld (config : SplitConfig) : SplitConfig :=
  { config with heldOutFamily := none, declared := declared_none }

inductive EntityCohort where
  | coldActor
  | coldCounterparty
  | coldPair
  | warmWithinCampaign
  | returningPriorCampaign
deriving DecidableEq, Repr

def EntityCohort.value : EntityCohort → String
  | coldActor => "cold_actor"
  | coldCounterparty => "cold_counterparty"
  | coldPair => "cold_pair"
  | warmWithinCampaign => "warm_within_campaign"
  | returningPriorCampaign => "returning_prior_campaign"

/-- the arguments of `_build_split` -/
structure SplitFields where
  config : SplitConfig
  campaigns : PartitionName → List String
  rowIds : PartitionName → List String
  trainingRowIds : List String
  entityCohorts : Dict String (List EntityCohort)
  rowFamilies : Dict String String
  rowCampaigns : Dict String String
  rowIsFraud : Dict String Bool
  rowNetSettledValues : Dict String Decimal
  heldOutEvaluationRowIds : List String

/-- `EvaluationSplit` -/
structure EvaluationSplit extends SplitFields where
  labelMaturityCutoff : Time
  sampleCounts : PartitionName → ℕ
  fraudPrevalence : PartitionName → Decimal
  netSettledValueTotals : PartitionName → Decimal
  heldOutFamily : Option String
  splitDigest : String

/-! ## Decision rows -/

/-- `_decision_time` -/
def decisionTime (row : ObservedEvent) : Except SimError Time :=
  match row.decisionAt with
  | none => .error (.valueError "decision observation has no decision_at")
  | some t => .ok t

/-- `_decision_time` of a row that has one -/
def decisionKey (row : ObservedEvent) : Time := row.decisionAt.getD 0

/-- `_observation_time` -/
def observationTime (row : ObservedEvent) : Time := if row.isDecisionPoint then decisionKey row else row.availableAt

/-- `_decision_rows`: the decisions, with the truth row of each -/
def decisionRows (corpus : FrozenCorpus) : Except SimError (List (ObservedEvent × TruthRow)) := do
  check (decide (corpus.truth.map TruthRow.eventId).Nodup) (.valueError "corpus contains duplicate truth event IDs")
  let truthByEvent := Dict.ofList (corpus.truth.map fun t => (t.eventId, t))
  let decisions := corpus.observations.filter ObservedEvent.isDecisionPoint
  check (decide (decisions.map ObservedEvent.eventId).Nodup)
    (.valueError "corpus contains duplicate observation event IDs")
  check (decide ((decisions.map ObservedEvent.eventId).toFinset = (corpus.truth.map TruthRow.eventId).toFinset))
    (.valueError "decision observations and evaluator truth must correspond exactly")
  decisions.mapM fun d =>
    match truthByEvent.get? d.eventId with
    | none => .error .keyError
    | some t => .ok (d, t)

/-- `_partition_for` -/
def partitionFor (decisionAt : Time) (config : SplitConfig) : Except SimError PartitionName :=
  if decisionAt ≤ config.trainEnd then .ok .train
  else if decisionAt ≤ config.calibratorFitEnd then .ok .calibratorFit
  else if decisionAt ≤ config.thresholdEnd then .ok .threshold
  else if decisionAt ≤ config.developmentEnd then .ok .development
  else .error (.valueError "campaign begins beyond development_end")

/-! ## Entity cohorts -/

/-- the campaigns seen of each actor, counterparty and pair -/
structure CampaignIndex where
  actors : Dict String (Finset String)
  counterparties : Dict String (Finset String)
  pairs : Dict (String × String) (Finset String)

namespace CampaignIndex

def empty : CampaignIndex := ⟨∅, ∅, ∅⟩

/-- an observation of a campaign -/
def observe (index : CampaignIndex) (seen : ObservedEvent × String) : CampaignIndex where
  actors := index.actors.set seen.1.actorId (insert seen.2 (index.actors.getD seen.1.actorId ∅))
  counterparties :=
    index.counterparties.set seen.1.counterpartyId (insert seen.2 (index.counterparties.getD seen.1.counterpartyId ∅))
  pairs :=
    index.pairs.set (seen.1.actorId, seen.1.counterpartyId)
      (insert seen.2 (index.pairs.getD (seen.1.actorId, seen.1.counterpartyId) ∅))

/-- the labels of a row of a campaign -/
def labels (index : CampaignIndex) (row : ObservedEvent) (campaign : String) : List EntityCohort :=
  let actor := index.actors.getD row.actorId ∅
  let counterparty := index.counterparties.getD row.counterpartyId ∅
  let pair := index.pairs.getD (row.actorId, row.counterpartyId) ∅
  (if actor = ∅ then [.coldActor] else []) ++ (if counterparty = ∅ then [.coldCounterparty] else []) ++
    (if pair = ∅ then [.coldPair] else []) ++
    (if campaign ∈ actor ∨ campaign ∈ counterparty ∨ campaign ∈ pair then [.warmWithinCampaign] else []) ++
    (if actor \ {campaign} ≠ ∅ ∨ counterparty \ {campaign} ≠ ∅ ∨ pair \ {campaign} ≠ ∅ then [.returningPriorCampaign]
    else [])

end CampaignIndex

/-- `_entity_cohorts` -/
def entityCohorts (observations : List ObservedEvent) (decisions : List (ObservedEvent × TruthRow)) (truth : List TruthRow) :
    Except SimError (Dict String (List EntityCohort)) := do
  check (decide (truth.map TruthRow.paymentId).Nodup) (.valueError "corpus truth contains duplicate payment IDs")
  let truthByPayment := Dict.ofList (truth.map fun t => (t.paymentId, t))
  let seen ← observations.mapM fun o =>
    match truthByPayment.get? o.paymentId with
    | none => .error (.valueError "observation does not resolve to evaluator truth")
    | some t => .ok (o, t.campaignId)
  let history := sortBy (fun s => toLex (observationTime s.1, s.1.eventId)) seen
  pure (Dict.ofList (Cohorts.sweep (fun r => decisionKey r.1) (fun s => observationTime s.1) CampaignIndex.observe
    (fun index r => (r.1.eventId, index.labels r.1 r.2.campaignId)) .empty history
    (Cohorts.cohorts (fun r => decisionKey r.1) decisions)))

/-! ## Building a split -/

/-- `d[key]` -/
def lookup {α : Type} (d : Dict String α) (key : String) : Except SimError α :=
  match d.get? key with
  | none => .error .keyError
  | some a => .ok a

/-- a dictionary over the partition names -/
def eachPartition {α : Type} (f : PartitionName → Except SimError α) : Except SimError (PartitionName → α) := do
  let train ← f .train
  let calibratorFit ← f .calibratorFit
  let threshold ← f .threshold
  let development ← f .development
  pure fun
    | .train => train
    | .calibratorFit => calibratorFit
    | .threshold => threshold
    | .development => development

/-- `_canonical_decimal` of a finite number: positional notation without trailing zeros -/
def canonicalDecimal (d : Decimal) : String :=
  if d.coeff = 0 then "0"
  else
    let coeff := d.coeff.natAbs * 10 ^ d.exp.toNat
    let ds := Decimal.natText coeff
    let sign := if d.coeff < 0 then ['-'] else []
    if 0 ≤ d.exp then String.ofList (sign ++ ds)
    else
      let text := (DecimalTuple.pointed ds (d.exp + ds.length)).reverse.dropWhile (· = '0')
      String.ofList (sign ++ (if text.head? = some '.' then text.tail else text).reverse)

example : canonicalDecimal ⟨-120500, -3⟩ = "-120.5" := by decide +kernel

example : canonicalDecimal ⟨12, 2⟩ = "1200" := by decide +kernel

/-- a JSON object over the partition names, in the order of their texts -/
def partitionJson (f : PartitionName → Json) : Json :=
  .obj ([PartitionName.calibratorFit, .development, .threshold, .train].map fun name => (name.value, f name))

def dictJson {α : Type} (d : Dict String α) (f : α → Json) : Json :=
  .obj ((sortBy Prod.fst d.items).map fun item => (item.1, f item.2))

def textsJson (xs : List String) : Json := .arr (xs.map .str)

def SplitConfig.document (config : SplitConfig) : Json :=
  .obj [
    ("calibrator_fit_end", .str (Calendar.timestampText config.calibratorFitEnd)),
    ("development_end", .str (Calendar.timestampText config.developmentEnd)),
    ("held_out_family", config.heldOutFamily.elim .null .str),
    ("threshold_end", .str (Calendar.timestampText config.thresholdEnd)),
    ("train_end", .str (Calendar.timestampText config.trainEnd))]

/-- the share of fraud among the rows of a window -/
def prevalenceOf (fields : SplitFields) (name : PartitionName) : Except SimError Decimal := do
  let fraud ← (fields.rowIds name).mapM (lookup fields.rowIsFraud)
  if fraud = [] then pure 0
  else
    match Decimal.div 28 ⟨fraud.count true, 0⟩ ⟨fraud.length, 0⟩ with
    | some rate => pure rate
    | none => .error .invalidOperation

/-- the net settled value of the rows of a window -/
def valueOf (fields : SplitFields) (name : PartitionName) : Except SimError Decimal := do
  let values ← (fields.rowIds name).mapM (lookup fields.rowNetSettledValues)
  pure (.sum .default values)

/-- the document of `_build_split` -/
def SplitFields.document (fields : SplitFields) (prevalence values : PartitionName → Decimal) : Json := .obj [
  ("campaigns", partitionJson fun name => textsJson (fields.campaigns name)),
  ("config", fields.config.document),
  ("entity_cohorts", dictJson fields.entityCohorts fun labels => textsJson (labels.map EntityCohort.value)),
  ("fraud_prevalence", partitionJson fun name => .str (canonicalDecimal (prevalence name))),
  ("held_out_evaluation_row_ids", textsJson fields.heldOutEvaluationRowIds),
  ("label_maturity_cutoff", .str (Calendar.isoformat fields.config.trainEnd)),
  ("net_settled_value_totals", partitionJson fun name => .str (canonicalDecimal (values name))),
  ("partition_names", textsJson (PartitionName.all.map PartitionName.value)),
  ("row_campaigns", dictJson fields.rowCampaigns .str),
  ("row_families", dictJson fields.rowFamilies .str),
  ("row_ids", partitionJson fun name => textsJson (fields.rowIds name)),
  ("row_is_fraud", dictJson fields.rowIsFraud .bool),
  ("row_net_settled_values", dictJson fields.rowNetSettledValues fun v => .str (canonicalDecimal v)),
  ("sample_counts", partitionJson fun name => .int (fields.rowIds name).length),
  ("training_row_ids", textsJson fields.trainingRowIds)]

/-- `_build_split` -/
def buildSplit [Sha256] (fields : SplitFields) : Except SimError EvaluationSplit := do
  let prevalence ← eachPartition (prevalenceOf fields)
  let values ← eachPartition (valueOf fields)
  pure
    { fields with
      labelMaturityCutoff := fields.config.trainEnd
      sampleCounts := fun name => (fields.rowIds name).length
      fraudPrevalence := prevalence
      netSettledValueTotals := values
      heldOutFamily := fields.config.heldOutFamily
      splitDigest := Sha256.hexdigest (fields.document prevalence values) }

/-- the rows of another family -/
def withoutFamily (rowFamilies : Dict String String) (family : String) (rowIds : List String) :
    Except SimError (List String) :=
  rowIds.filterM fun eventId => do
    let f ← lookup rowFamilies eventId
    pure (f ≠ family)

/-- the rows of one family -/
def ofFamily (rowFamilies : Dict String String) (family : String) (rowIds : List String) : Except SimError (List String) :=
  rowIds.filterM fun eventId => do
    let f ← lookup rowFamilies eventId
    pure (f = family)

/-- `make_leave_one_family_out` -/
def makeLeaveOneFamilyOut [Sha256] (split : EvaluationSplit) (family : String) : Except SimError EvaluationSplit :=
  if h : family ∈ families then do
    let filteredRows ← eachPartition fun name =>
      if name.fitting then withoutFamily split.rowFamilies family (split.rowIds name) else pure (split.rowIds name)
    let filteredCampaigns ← eachPartition fun name =>
      if name.fitting then do
        let retained ← (filteredRows name).mapM (lookup split.rowCampaigns)
        pure ((split.campaigns name).filter fun c => c ∈ retained)
      else pure (split.campaigns name)
    let trainingRowIds ← withoutFamily split.rowFamilies family split.trainingRowIds
    let heldOut ← ofFamily split.rowFamilies family (split.rowIds .development)
    buildSplit
      { split.toSplitFields with
        config := split.config.holdOut family h
        campaigns := filteredCampaigns
        rowIds := filteredRows
        trainingRowIds := trainingRowIds
        heldOutEvaluationRowIds := heldOut }
  else .error (.valueError "held-out family is not declared")

/-! ## Making a split -/

/-- a campaign, its window and its first decision -/
structure CampaignWindow where
  campaignId : String
  window : PartitionName
  first : Time

/-- `partition_by_campaign`, with the first decisions it was computed from -/
def partitionByCampaign (rows : List (ObservedEvent × TruthRow)) (config : SplitConfig) :
    Except SimError (List CampaignWindow) :=
  (Grouping.groupBy (fun r => r.2.campaignId) rows).items.mapM fun group => do
    let times ← group.2.mapM fun r => decisionTime r.1
    let first := times.min?.getD 0
    let window ← partitionFor first config
    pure ⟨group.1, window, first⟩

/-- the campaigns of a window, by their first decisions -/
def windowCampaigns (windows : List CampaignWindow) (name : PartitionName) : List String :=
  (sortBy (fun c => toLex (c.first, c.campaignId)) (windows.filter fun c => c.window = name)).map CampaignWindow.campaignId

/-- the rows of a window -/
def windowRows (windows : List CampaignWindow) (rows : List (ObservedEvent × TruthRow)) (name : PartitionName) :
    List (ObservedEvent × TruthRow) :=
  rows.filter fun r => windows.any fun c => c.campaignId = r.2.campaignId && c.window = name

/-- `make_evaluation_split` -/
def makeEvaluationSplit [Sha256] (corpus : FrozenCorpus) (config : SplitConfig) : Except SimError EvaluationSplit := do
  let rows ← decisionRows corpus
  let windows ← partitionByCampaign rows config
  let ordered := sortBy (fun r => toLex (decisionKey r.1, r.1.eventId)) rows
  let rowIds := fun name => (windowRows windows ordered name).map fun r => r.1.eventId
  let training := (windowRows windows ordered .train).filter fun r => r.2.labelMatureAt ≤ config.trainEnd
  let rowFamilies := Dict.ofList (corpus.truth.map fun t => (t.eventId, t.family))
  let cohorts ← entityCohorts corpus.observations ordered corpus.truth
  let heldRows ←
    match config.heldOutFamily with
    | none => pure []
    | some family => ofFamily rowFamilies family (rowIds .development)
  let split ← buildSplit
    { config := config
      campaigns := windowCampaigns windows
      rowIds := rowIds
      trainingRowIds := training.map fun r => r.1.eventId
      entityCohorts := cohorts
      rowFamilies := rowFamilies
      rowCampaigns := Dict.ofList (corpus.truth.map fun t => (t.eventId, t.campaignId))
      rowIsFraud := Dict.ofList (corpus.truth.map fun t => (t.eventId, t.isFraud))
      rowNetSettledValues := Dict.ofList (corpus.truth.map fun t => (t.eventId, t.netSettledValue))
      heldOutEvaluationRowIds := heldRows }
  match config.heldOutFamily with
  | none => pure split
  | some family => makeLeaveOneFamilyOut split family

end Splits

end Apar
