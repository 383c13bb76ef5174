/-
The commands of a batch of legitimate traffic (`evaluation/v5_population.py`, `_scaled_legitimate_commands`).

A batch gets a population of its own. Its commands are filled in payment by payment: the recipes of the rail are tried in
an order that moves on with every payment, and the first that fits the remaining count gives the next payment's commands.

`Recipes` are the values in which the two rails differ. What the table promises comes with it: some recipe is a single
command, and every recipe is legal from the start and leaves a payment in one of the states `ends`.

Not modelled: the campaign evidence that describes the commands.
-/
import Apar.Core.DecimalProducts
import Apar.Generators.Population
import Apar.Evaluation.LegitimateBatches

namespace Apar

open Exec Population PopulationGenerator

namespace LegitimateTraffic

/-! ## Partitions -/

inductive Partition where
  | train
  | calibration
  | threshold
  | developmentTest
  | hardeningTrain
  | adaptiveHoldout
deriving DecidableEq, Repr

namespace Partition

def value : Partition → String
  | train => "train"
  | calibration => "calibration"
  | threshold => "threshold"
  | developmentTest => "development_test"
  | hardeningTrain => "hardening_train"
  | adaptiveHoldout => "adaptive_holdout"

/-- `_PARTITION_OFFSETS_DAYS` -/
def offsetDays : Partition → ℕ
  | train => 0
  | calibration => 10
  | threshold => 20
  | developmentTest => 30
  | hardeningTrain => 40
  | adaptiveHoldout => 50

end Partition

/-- `_BASE_START` -/
def baseStart : Time := 1767225600000000

/-- seconds after midnight of a partition's first day -/
def partitionTime (p : Partition) (seconds : ℕ) : Time := baseStart + (p.offsetDays * daySeconds + seconds : ℕ) * 1000000

/-! ## Populations -/

/-- what the planner takes from libraries -/
structure Libraries where
  uuid5 : Uuid5
  /-- `SeedSequence([a, b]).generate_state(1)[0]` -/
  generateState : ℕ → ℕ → ℕ
  /-- `default_rng(seed)` -/
  defaultRng : ℕ → Draws
  /-- `int.from_bytes(hashlib.sha256(document.encode()).digest()[:8], "big")` -/
  digestPrefix : String → ℕ

def Libraries.generator (lib : Libraries) (seed : ℕ) : PopulationGenerator :=
  ⟨seed, lib.uuid5, lib.generateState, lib.defaultRng⟩

def natStr (n : ℕ) : String := String.ofList (Decimal.natText n)

/-- `f"{n:04d}"` -/
def padded (n : ℕ) : String := String.ofList (List.replicate (4 - (Decimal.natText n).length) '0' ++ Decimal.natText n)

/-- `_domain_seed` -/
def domainSeed (lib : Libraries) (baseSeed : ℤ) (labels : List String) : ℕ :=
  let document := ":".intercalate (["apar", "sentinel-v5", "development", String.ofList (Decimal.intText baseSeed)] ++ labels)
  let derived := lib.digestPrefix document % 2 ^ 63
  if derived = 0 then 1 else derived

/-- `_scenario_bundle` -/
def scenarioBundle (p : Partition) (family : String) (campaignIndex seed : ℕ) : ScenarioBundle where
  scenarioId := "sentinel-v5-" ++ p.value ++ "-" ++ family ++ "-" ++ padded campaignIndex
  benignEntityCount := 40
  illicitEntityCount := 16
  durationHours := 24
  seed := seed
  simulationStart := partitionTime p (60 * campaignIndex)
  lasts := by norm_num

def legitimateSeed (lib : Libraries) (p : Partition) (rail : Rail) (partitionSeed : ℤ) (campaignIndex : ℕ) : ℕ :=
  domainSeed lib partitionSeed [p.value, "legitimate", rail.value, natStr campaignIndex]

def legitimateBundle (lib : Libraries) (p : Partition) (rail : Rail) (partitionSeed : ℤ) (campaignIndex : ℕ) :
    ScenarioBundle :=
  scenarioBundle p ("legitimate-" ++ rail.value) campaignIndex (legitimateSeed lib p rail partitionSeed campaignIndex)

/-- `_legitimate_population`; the seed is `legitimateSeed` -/
def legitimatePopulation (lib : Libraries) (p : Partition) (rail : Rail) (partitionSeed : ℤ) (campaignIndex : ℕ) :
    Except GenerationError Population :=
  (lib.generator (legitimateSeed lib p rail partitionSeed campaignIndex)).generate
    (legitimateBundle lib p rail partitionSeed campaignIndex)

/-! ## Recipes -/

/-- the commands of a payment: its opening, and what follows -/
structure Recipe (O : Type) where
  name : String
  opening : O
  followups : List O

def Recipe.operations {O : Type} (r : Recipe O) : List O := r.opening :: r.followups

/-- the state after legal operations -/
def stateAfter {S O R : Type} (L : Lifecycle S O R) : S → List O → Option S
  | s, [] => some s
  | s, o :: rest => (L.transition s o).bind fun t => stateAfter L t.1 rest

/-- `_lifecycle_key` -/
def lifecycleKey (name paymentId campaignId : String) : String := name ++ ":" ++ paymentId ++ ":campaign:" ++ campaignId

/-- what the two rails of legitimate traffic differ in -/
structure Recipes (S O R : Type) where
  rail : Lifecycle S O R
  recipes : List (Recipe O)
  counterparty : EntityRole
  /-- the fee, in cents -/
  fee : ℕ
  accounts : String → String → R → String
  /-- the key of an opening command, by its payment and campaign -/
  openingKey : O → String → String → String
  ends : List S
  single : ∃ r ∈ recipes, r.followups = []
  legal : ∀ r ∈ recipes, ∃ s ∈ ends, stateAfter rail rail.created r.operations = some s

/-- `_command_identity` -/
structure CommandIdentity where
  uuid5 : Uuid5
  namespaceId : ℕ

def commandIdentity (lib : Libraries) (p : Partition) (rail : Rail) (seed campaignIndex : ℕ) : CommandIdentity where
  uuid5 := lib.uuid5
  namespaceId := lib.uuid5.value namespaceUrl ("apar:sentinel-v5:legitimate:" ++ p.value ++ ":" ++ rail.value ++ ":" ++
    natStr seed ++ ":" ++ natStr campaignIndex)

namespace CommandIdentity

def identifier (c : CommandIdentity) (name : String) : String := Uuid.formatUuid (c.uuid5.value c.namespaceId name)

def campaignId (c : CommandIdentity) : String := c.identifier "campaign"

def payment (c : CommandIdentity) (label : String) : String := "payment:" ++ c.identifier ("payment:" ++ label)

def trace (c : CommandIdentity) (label : String) : String := c.identifier ("trace:" ++ label)

end CommandIdentity

variable {S O R : Type}

/-- the label of a payment -/
def paymentLabel (campaignIndex recipeIndex : ℕ) (recipeName : String) : String :=
  "batch-" ++ padded campaignIndex ++ "-" ++ padded recipeIndex ++ "-" ++ recipeName

/-- the amount of a payment -/
def paymentAmount (campaignIndex recipeIndex : ℕ) : Except GenerationError Decimal :=
  match Decimal.div 28 ⟨((campaignIndex * 1703 + recipeIndex * 1301) % 7000 : ℕ), 0⟩ ⟨100, 0⟩ with
  | none => .error (.raised .invalidOperation)
  | some extra =>
    match (Decimal.add .default ⟨2000, -2⟩ extra).quantize .default (-2) with
    | none => .error (.raised .invalidOperation)
    | some amount => .ok amount

/-- the commands of one payment -/
def paymentCommands (T : Recipes S O R) (identity : CommandIdentity) (consumers counterparties : List Entity)
    (campaignIndex recipeIndex : ℕ) (recipe : Recipe O) : Except GenerationError (List (Request O R)) := do
  let consumer ← item consumers (recipeIndex % consumers.length)
  let counterparty ← item counterparties ((campaignIndex + recipeIndex) % counterparties.length)
  let label := paymentLabel campaignIndex recipeIndex recipe.name
  let paymentId := identity.payment label
  let amount ← paymentAmount campaignIndex recipeIndex
  let payer ← accountText "payer_account" consumer
  let payee ← accountText "payee_account" counterparty
  let opening ← lifted (T.rail.openingRequest .default recipe.opening paymentId
    (T.openingKey recipe.opening paymentId identity.campaignId) {
      amount := amount
      currency := "USD"
      accounts := T.accounts payer payee
      actorId := consumer.entityId
      counterpartyId := counterparty.entityId
      campaignId := identity.campaignId
      traceId := identity.trace label
      fee := ⟨T.fee, -2⟩ })
  let followups ← recipe.followups.mapM fun operation => lifted (Lifecycle.followupRequest operation paymentId
    (lifecycleKey (T.rail.operationName operation) paymentId identity.campaignId))
  return opening :: followups

/-- the recipes in the order of a payment -/
def orderedRecipes (T : Recipes S O R) (campaignIndex recipeIndex : ℕ) : List (Recipe O) :=
  let turn := (campaignIndex + recipeIndex) % T.recipes.length
  T.recipes.drop turn ++ T.recipes.take turn

/-- the first recipe that fits -/
def fittingRecipe (T : Recipes S O R) (campaignIndex recipeIndex remaining : ℕ) : Option (Recipe O) :=
  (orderedRecipes T campaignIndex recipeIndex).find? fun r => 1 + r.followups.length ≤ remaining

/-- the recipe loop -/
def recipeLoop (T : Recipes S O R) (identity : CommandIdentity) (consumers counterparties : List Entity)
    (campaignIndex remaining recipeIndex : ℕ) : Except GenerationError (List (Request O R)) :=
  if remaining = 0 then .ok []
  else
    match fittingRecipe T campaignIndex recipeIndex remaining with
    | none => .error .stopIteration
    | some recipe => do
      let commands ← paymentCommands T identity consumers counterparties campaignIndex recipeIndex recipe
      let rest ← recipeLoop T identity consumers counterparties campaignIndex (remaining - (1 + recipe.followups.length))
        (recipeIndex + 1)
      return commands ++ rest
termination_by remaining

/-- the times of a batch -/
def batchSchedule (p : Partition) (batch : Batch) : List Time :=
  (List.range batch.eventCount).map fun index =>
    partitionTime p batch.startOffsetSeconds + (index * eventStrideMilliseconds * 1000 : ℕ)

/-- `_scaled_legitimate_commands`, for the recipes of the batch's rail -/
def scaledLegitimateCommands (T : Recipes S O R) (lib : Libraries) (p : Partition) (partitionSeed : ℤ) (batch : Batch) :
    Except GenerationError (List (Request O R) × List Time × Population) := do
  let population ← legitimatePopulation lib p batch.rail partitionSeed (batch.campaignIndex + 1)
  let consumers := withRole .consumer population.entities
  let counterparties := withRole T.counterparty population.entities
  require (!consumers.isEmpty && !counterparties.isEmpty && (consumers ++ counterparties).all (·.accountId.isSome))
    "scaled legitimate population lacks operational parties"
  let identity := commandIdentity lib p batch.rail
    (legitimateSeed lib p batch.rail partitionSeed (batch.campaignIndex + 1)) (batch.campaignIndex + 1)
  let commands ← recipeLoop T identity consumers counterparties batch.campaignIndex batch.eventCount 0
  return (commands, batchSchedule p batch, population)

end LegitimateTraffic

end Apar
