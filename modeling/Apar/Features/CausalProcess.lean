/-
Decisions in the incremental feature state (`process` of `features/state.py`, `build_feature_matrix` of
`features/builders.py`): a delivery is taken in, the decisions that have no row yet are grouped by their time, and each
group is computed from the history before it and then closed.

- `Reachable`: the states that successful calls lead to.
-/
import Apar.Core.Cohorts
import Apar.Features.FeatureContext

namespace Apar

open Exec

/-! ## The catalog -/

inductive MissingBehavior where
  | zero
  | sentinel
  | indicator
deriving DecidableEq

/-- `FeatureDefinition`: what the state reads of one -/
structure FeatureDefinition where
  name : String
  missingBehavior : MissingBehavior
deriving DecidableEq

/-- an audited catalog, with its digest -/
structure FeatureCatalog where
  features : List FeatureDefinition
  digest : String
  nodup : (features.map FeatureDefinition.name).Nodup

namespace CausalFeatureState

variable {F : Type} [FeatureMath F]

/-! ## One row -/

/-- `derive` -/
def derive (c : FeatureContext) (definition : FeatureDefinition) : Except FeatureStateError (Sourced F) :=
  match Assoc.get? definition.name FeatureContext.methods with
  | none => .error ⟨"feature has no executable definition: " ++ definition.name⟩
  | some method =>
    let derived := method c
    if FloatText.isFinite derived.value then .ok derived
    else .ok ⟨if definition.missingBehavior = .sentinel then FeatureContext.sentinel else PyFloat.ofInt 0, derived.sources⟩

/-- `_compute` -/
def compute (catalog : FeatureCatalog) (s : CausalFeatureState) (e : ObservedEvent) (decisionAt : Time) :
    Except FeatureStateError (FeatureVector F) := do
  let derived ← catalog.features.mapM (derive ⟨s, e, decisionAt⟩)
  let orderedSources := sortedSet (derived.flatMap Sourced.sources)
  let maxSource := ((orderedSources.filterMap s.known.get?).map ObservedEvent.availableAt).max?
  check (maxSource.all (· < decisionAt)) ⟨"historical source violates strict knowledge time"⟩
  pure {
    eventId := e.eventId
    decisionAt := decisionAt
    sourceEventIds := orderedSources
    maxSourceAvailableAt := maxSource
    catalogDigest := catalog.digest
    values := Dict.ofList (catalog.features.zipWith (fun d x => (d.name, x.value)) derived) }

/-! ## Batches of decisions -/

/-- `_decision_sort_key`, which raises where there is no decision time -/
def dated (e : ObservedEvent) : Except FeatureStateError (Time × ObservedEvent) :=
  match e.decisionAt with
  | some t => .ok (t, e)
  | none => .error ⟨"decision-point event must declare decision_at"⟩

def decisionSortKey (p : Time × ObservedEvent) : Time ×ₗ String := toLex (p.1, p.2.eventId)

/-- the decisions without a row -/
def pending (s : CausalFeatureState) : List ObservedEvent :=
  s.known.values.filter fun e => e.isDecisionPoint && e.eventId ∉ s.emittedDecisionIds

/-- a batch is closed: its decisions have rows, and its time is the watermark -/
def close (s : CausalFeatureState) (decisionAt : Time) (batchIds : List String) : CausalFeatureState :=
  { s with emittedDecisionIds := s.emittedDecisionIds ++ batchIds, watermark := some decisionAt }

/-- one turn of the loop of `process` over the decision times -/
def processBatch (catalog : FeatureCatalog) (cohort : List (Time × ObservedEvent)) :
    EStateM FeatureStateError CausalFeatureState (List (FeatureVector F)) := do
  match cohort with
  | [] => pure []
  | (decisionAt, _) :: _ =>
    let batch := cohort.map Prod.snd
    let batchIds := batch.map ObservedEvent.eventId
    let s ← get
    guard (!s.watermark.any (decisionAt ≤ ·)) ⟨"decision belongs to a closed decision timestamp"⟩
    let admitted := s.admitSourcesStrictlyBefore decisionAt batchIds
    set admitted
    let rows ← raising (batch.mapM fun e => compute catalog admitted e decisionAt)
    set (admitted.close decisionAt batchIds)
    pure rows

/-- `process` -/
def process (catalog : FeatureCatalog) (events : List ObservedEvent) :
    EStateM FeatureStateError CausalFeatureState (List (FeatureVector F)) := do
  let s ← get
  let remembered ← raising (s.remember events)
  set remembered
  let decisions ← raising (remembered.pending.mapM dated)
  let rows ← (Cohorts.cohorts Prod.fst (sortBy decisionSortKey decisions)).mapM (processBatch catalog)
  pure rows.flatten

/-- `build_feature_matrix`: its rows -/
def buildFeatureMatrix (catalog : FeatureCatalog) (events : List ObservedEvent) :
    Except FeatureStateError (List (FeatureVector F)) :=
  match process catalog (sortBy ObservedEvent.eventId events) empty with
  | .ok rows _ => .ok rows
  | .error e _ => .error e

/-- the states that successful calls lead to -/
inductive Reachable (F : Type) [FeatureMath F] (catalog : FeatureCatalog) : CausalFeatureState → Prop where
  | empty : Reachable F catalog empty
  | process {s t : CausalFeatureState} (events : List ObservedEvent) (rows : List (FeatureVector F)) :
      Reachable F catalog s → process catalog events s = .ok rows t → Reachable F catalog t

end CausalFeatureState

end Apar
