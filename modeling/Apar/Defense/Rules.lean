/-
The deterministic rule engine (`defense/rules.py`): every rule reads one observation and its feature vector, a hit
carries a reason and a score, and a result aggregates its hits. Feature values are finite floats by their exact values.

- `evaluate_eq_ok`: over an observation and its own vector the engine returns: no hit and no result fails a validator.
- `riskOf_perm`: the risk of the same scores in another order is off by roundings only.
- `nineTenths_le_riskOf`: three rules together decline, in whatever order they are multiplied.
-/
import Mathlib.Data.List.ReduceOption
import Mathlib.Data.String.Basic
import Apar.Core.Binary64
import Apar.Core.Sorting
import Apar.Defense.Observation
import Apar.Features.State

namespace Apar

open Exec

inductive DefenseReason where
  | integrityFailure
  | requiredDataMissing
  | actorVelocity
  | counterpartyVelocity
  | amountDeviation
  | newCounterparty
  | graphFanIn
  | graphFanOut
  | graphSharedNeighbor
  | featureStateDegraded
  | modelUnavailable
  | modelTimeout
deriving DecidableEq, Repr

namespace DefenseReason

def value : DefenseReason → String
  | integrityFailure => "INTEGRITY_FAILURE"
  | requiredDataMissing => "REQUIRED_DATA_MISSING"
  | actorVelocity => "ACTOR_VELOCITY"
  | counterpartyVelocity => "COUNTERPARTY_VELOCITY"
  | amountDeviation => "AMOUNT_DEVIATION"
  | newCounterparty => "NEW_COUNTERPARTY"
  | graphFanIn => "GRAPH_FAN_IN"
  | graphFanOut => "GRAPH_FAN_OUT"
  | graphSharedNeighbor => "GRAPH_SHARED_NEIGHBOR"
  | featureStateDegraded => "FEATURE_STATE_DEGRADED"
  | modelUnavailable => "MODEL_UNAVAILABLE"
  | modelTimeout => "MODEL_TIMEOUT"

theorem value_injective : Function.Injective value := by
  intro a b h
  revert h
  cases a <;> cases b <;> decide

/-- the reasons of the schema and integrity gates -/
def mandatory (reason : DefenseReason) : Bool := reason = integrityFailure || reason = requiredDataMissing

end DefenseReason

inductive RuleSeverity where
  | challenge
  | decline
deriving DecidableEq, Repr

open Binary64 (nearest add sub mul div prod epsilon Unit)

namespace Rules

/-- the literals `0.60`, `0.20` and `0.90` -/
def threeFifths : ℚ := nearest (3 / 5)

def oneFifth : ℚ := nearest (1 / 5)

def nineTenths : ℚ := nearest (9 / 10)

theorem unit_threeFifths : Unit threeFifths := Unit.nearest ⟨by norm_num, by norm_num⟩

theorem abs_threeFifths : |threeFifths - 3 / 5| ≤ epsilon := Binary64.abs_nearest_sub_le (by norm_num)

end Rules

open Rules

/-- `validate_semantic_version` -/
def isSemanticVersion (s : String) : Bool :=
  let parts := s.toList.splitOn '.'
  parts.length == 3 && parts.all isVersionNumber

/-- the rule version and its thresholds -/
structure RuleManifest where
  version : String := "1.0.0"
  actorCount1m : ℚ := 4
  actorCount10m : ℚ := 8
  counterpartyFanin : ℚ := 5
  actorFanout : ℚ := 5
  amountZscore : ℚ := 4
  sharedNeighbors : ℚ := 3
  repeatedPairCount : ℚ := 4
  degradedState : ℚ := 1
  thresholdScore : ℚ := threeFifths

/-- the validators of a manifest -/
structure RuleManifest.Valid (m : RuleManifest) : Prop where
  version : isSemanticVersion m.version = true
  actorCount1m : 0 < m.actorCount1m
  actorCount10m : 0 < m.actorCount10m
  counterpartyFanin : 0 < m.counterpartyFanin
  actorFanout : 0 < m.actorFanout
  amountZscore : 0 < m.amountZscore
  sharedNeighbors : 0 < m.sharedNeighbors
  repeatedPairCount : 0 < m.repeatedPairCount
  degradedState : 0 < m.degradedState
  thresholdScore : Unit m.thresholdScore

theorem RuleManifest.valid_default : ({} : RuleManifest).Valid := by
  constructor
  case version => decide
  case thresholdScore => exact unit_threeFifths
  all_goals norm_num

/-! ## Hits -/

structure RuleHit where
  reason : DefenseReason
  score : ℚ
  severity : RuleSeverity
  mandatory : Bool
  evidenceSourceIds : List String
  ruleVersion : String
deriving DecidableEq

/-- the severity of a score -/
def severityOf (mandatory : Bool) (score : ℚ) : RuleSeverity :=
  if mandatory || decide (nineTenths ≤ score) then .decline else .challenge

/-- the validators of `RuleHit` -/
def RuleHit.validate (h : RuleHit) : Except SimError Unit := do
  check (0 ≤ h.score) (.valueError "Input should be greater than or equal to 0")
  check (h.score ≤ 1) (.valueError "Input should be less than or equal to 1")
  check (h.evidenceSourceIds = sortedSet h.evidenceSourceIds)
    (.valueError "evidence source IDs must be unique and sorted")
  check (isSemanticVersion h.ruleVersion) (.valueError "rule_version must be a semantic version")
  check (h.mandatory = h.reason.mandatory) (.valueError "mandatory classification must match the rule reason")
  check (h.severity = severityOf h.mandatory h.score)
    (.valueError "rule severity must match mandatory status and score")
  check (!h.mandatory || h.score = 1) (.valueError "mandatory rules must have score 1.0")

/-- `_hit`, before its validators -/
def RuleManifest.hitOf (m : RuleManifest) (evidence : List String) (reason : DefenseReason) (score : ℚ)
    (mandatory : Bool) : RuleHit where
  reason := reason
  score := score
  severity := severityOf mandatory score
  mandatory := mandatory
  evidenceSourceIds := evidence
  ruleVersion := m.version

/-- `_hit` -/
def RuleManifest.hit (m : RuleManifest) (evidence : List String) (reason : DefenseReason) (score : ℚ)
    (mandatory : Bool) : Except SimError RuleHit := do
  let hit := m.hitOf evidence reason score mandatory
  hit.validate
  pure hit

/-- `_hit_order` -/
def hitOrder (hit : RuleHit) : Bool ×ₗ ℚ ×ₗ String := toLex (!hit.mandatory, toLex (-hit.score, hit.reason.value))

/-- the risk of some scores together -/
def riskOf (scores : List ℚ) : ℚ := sub 1 (prod (scores.map fun score => sub 1 score))

/-- `_aggregate_risk` -/
def aggregateRisk (hits : List RuleHit) : ℚ := riskOf (hits.map RuleHit.score)

/-! ## Results -/

structure RuleResult where
  hits : List RuleHit
  score : ℚ
  manifestVersion : String
  eventId : String
  decisionAt : Time
  catalogDigest : String
deriving DecidableEq

/-- the validators of a bound `RuleResult` -/
def RuleResult.validate (r : RuleResult) : Except SimError Unit := do
  check (0 ≤ r.score) (.valueError "Input should be greater than or equal to 0")
  check (r.score ≤ 1) (.valueError "Input should be less than or equal to 1")
  check (isSemanticVersion r.manifestVersion) (.valueError "manifest_version must be a semantic version")
  check (isDigestText r.catalogDigest) (.valueError "rule provenance digests must be lowercase SHA-256")
  check (r.hits = sortBy hitOrder r.hits) (.valueError "rule hits must be in canonical order")
  check (decide (r.hits.map RuleHit.reason).Nodup) (.valueError "rule reasons must be unique")
  check (r.hits.all fun hit => hit.ruleVersion = r.manifestVersion)
    (.valueError "rule hit version must match result manifest version")
  check (r.score = aggregateRisk r.hits) (.valueError "rule result score must equal the aggregate risk")
  check (r.eventId ≠ "" && r.catalogDigest ≠ "") (.valueError "rule result provenance binding must not be blank")

/-! ## The engine -/

/-- the kinds that open a payment on a rail -/
def allowedKinds : Rail → List EventKind
  | .card => [.authorization, .authorizationDeclined]
  | .a2a => [.transferInitiated]
  | .agentic => [.authorization, .authenticationChallenge, .authorizationDeclined]

/-- `expected_integrity` -/
def expectedIntegrity : Rail → List IntegrityStatus
  | .agentic => [.pass, .fail]
  | _ => [.notApplicable]

/-- `coherent_schema` -/
def coherentSchema (event : ObservedEvent) : Bool :=
  event.isDecisionPoint && event.decisionAt.isSome && (allowedKinds event.rail).contains event.eventType &&
    (expectedIntegrity event.rail).contains event.integrityStatus

/-- `mandatory_reasons` -/
def mandatoryReasons (event : ObservedEvent) : List DefenseReason :=
  let coherent := coherentSchema event
  let requiredMissing := event.eventId = "" || event.paymentId = "" || event.actorId = "" ||
    event.counterpartyId = "" || event.currency = "" || event.decisionAt.isNone || !Decimal.ble 0 event.amount ||
      !coherent
  (if coherent && event.rail = .agentic && event.integrityStatus = .fail then [.integrityFailure] else []) ++
    if requiredMissing then [.requiredDataMissing] else []

/-- `_rule_score` -/
def ruleScore (value threshold : ℚ) : Option ℚ :=
  if value < threshold then none
  else some (min 1 (add threeFifths (mul oneFifth (sub (div value threshold) 1))))

/-- `_strongest` -/
def strongest (scores : List (Option ℚ)) : Option ℚ := scores.reduceOption.max?

/-- the rules in the order they are appended, each with the score it raises -/
def RuleManifest.signals (m : RuleManifest) (values : Dict String ℚ) : List (DefenseReason × Option ℚ) :=
  let value (name : String) : ℚ := values.getD name 0
  [(.actorVelocity, strongest
      [ruleScore (value "actor_count_1m") m.actorCount1m, ruleScore (value "actor_count_10m") m.actorCount10m]),
    (.graphFanIn, ruleScore (value "graph_counterparty_fanin") m.counterpartyFanin),
    (.graphFanOut, ruleScore (value "graph_actor_fanout") m.actorFanout),
    (.amountDeviation, ruleScore
      (max |value "actor_amount_zscore_24h"| |value "counterparty_amount_zscore_24h"|) m.amountZscore),
    (.graphSharedNeighbor, ruleScore (value "graph_shared_neighbor_count") m.sharedNeighbors),
    (.counterpartyVelocity, ruleScore (value "pair_prior_count") m.repeatedPairCount),
    (.featureStateDegraded, if m.degradedState ≤ value "dq_degraded_state" then some m.thresholdScore else none)]

/-- the signals that were raised -/
def raised {α : Type} (signals : List (α × Option ℚ)) : List (α × ℚ) :=
  signals.filterMap fun s => s.2.map fun score => (s.1, score)

/-- `RuleEngine.evaluate`, with the manifest of the engine -/
def RuleManifest.evaluate (m : RuleManifest) (event : ObservedEvent) (vector : FeatureVector ℚ) :
    Except SimError RuleResult := do
  check (event.eventId = vector.eventId) (.valueError "event and vector must describe the same event")
  check (event.decisionAt.all fun t => t = vector.decisionAt)
    (.valueError "event and vector must have the same decision time")
  let evidence := sortedSet (event.eventId :: vector.sourceEventIds)
  let gates ← (mandatoryReasons event).mapM fun reason => m.hit evidence reason 1 true
  let rules ← (raised (m.signals vector.values)).mapM fun s => m.hit evidence s.1 s.2 false
  let ordered := sortBy hitOrder (gates ++ rules)
  let result : RuleResult := {
    hits := ordered
    score := aggregateRisk ordered
    manifestVersion := m.version
    eventId := event.eventId
    decisionAt := vector.decisionAt
    catalogDigest := vector.catalogDigest }
  result.validate
  pure result

/-! ## Scores -/

/-- a score that may be raised: from the unit interval, and no less than the threshold score up to roundings -/
def Signal (score : ℚ) : Prop := Unit score ∧ 3 / 5 - 2 * epsilon ≤ score

variable {score : ℚ} {reason : DefenseReason} {scores : List ℚ}

theorem ruleScore_eq_some {value threshold : ℚ} (ht : 0 < threshold) (h : ruleScore value threshold = some score) :
    Signal score := by
  unfold ruleScore at h
  split_ifs at h with hlt
  rw [Option.some.injEq] at h
  have hratio : 1 ≤ div value threshold := by
    have := Binary64.nearest_mono zero_le_one ((one_le_div ht).2 (not_lt.1 hlt))
    rwa [Binary64.nearest_one] at this
  have hfifths := abs_threeFifths
  have hbase := unit_threeFifths.1
  have hrest : 0 ≤ mul oneFifth (sub (div value threshold) 1) :=
    Binary64.nearest_nonneg (mul_nonneg (Binary64.nearest_nonneg (by norm_num))
      (Binary64.nearest_nonneg (sub_nonneg.2 hratio)))
  have hsum : 0 ≤ add threeFifths (mul oneFifth (sub (div value threshold) 1)) :=
    Binary64.nearest_nonneg (add_nonneg hbase hrest)
  rw [← h]
  refine ⟨⟨le_min zero_le_one hsum, min_le_left _ _⟩, le_min (by linarith [Binary64.epsilon_pos]) ?_⟩
  have hlower : threeFifths ≤ threeFifths + mul oneFifth (sub (div value threshold) 1) := by linarith
  have hround := Binary64.nearest_mono hbase hlower
  have herror : |nearest threeFifths - threeFifths| ≤ epsilon :=
    Binary64.abs_nearest_sub_le unit_threeFifths.abs_le
  rw [abs_le] at hfifths herror
  calc (3 / 5 : ℚ) - 2 * epsilon ≤ nearest threeFifths := by linarith [hfifths.1, herror.1]
    _ ≤ add threeFifths (mul oneFifth (sub (div value threshold) 1)) := hround

theorem strongest_eq_some {scores : List (Option ℚ)} (h : strongest scores = some score) : some score ∈ scores := by
  have hmem : score ∈ scores.reduceOption := List.max?_mem h
  exact List.reduceOption_mem_iff.1 hmem

theorem mem_raised {α : Type} {signals : List (α × Option ℚ)} {a : α} :
    (a, score) ∈ raised signals ↔ (a, some score) ∈ signals := by
  simp [raised, List.mem_filterMap, Option.map_eq_some_iff]

/-- every raised score of the default manifest is a signal -/
theorem signal_of_raised {values : Dict String ℚ} (h : (reason, score) ∈ raised (({} : RuleManifest).signals values)) :
    Signal score ∧ reason.mandatory = false := by
  rw [mem_raised] at h
  simp only [RuleManifest.signals, List.mem_cons, Prod.mk.injEq, List.not_mem_nil, or_false] at h
  have hthreshold : Signal threeFifths := by
    have hfifths := abs_threeFifths
    refine ⟨unit_threeFifths, ?_⟩
    rw [abs_le] at hfifths
    linarith [hfifths.1, Binary64.epsilon_pos]
  rcases h with ⟨rfl, h⟩ | ⟨rfl, h⟩ | ⟨rfl, h⟩ | ⟨rfl, h⟩ | ⟨rfl, h⟩ | ⟨rfl, h⟩ | ⟨rfl, h⟩
  · have hmem := strongest_eq_some h.symm
    simp only [List.mem_cons, List.not_mem_nil, or_false] at hmem
    rcases hmem with hmem | hmem
    · exact ⟨ruleScore_eq_some (by norm_num) hmem.symm, rfl⟩
    · exact ⟨ruleScore_eq_some (by norm_num) hmem.symm, rfl⟩
  · exact ⟨ruleScore_eq_some (by norm_num) h.symm, rfl⟩
  · exact ⟨ruleScore_eq_some (by norm_num) h.symm, rfl⟩
  · exact ⟨ruleScore_eq_some (by norm_num) h.symm, rfl⟩
  · exact ⟨ruleScore_eq_some (by norm_num) h.symm, rfl⟩
  · exact ⟨ruleScore_eq_some (by norm_num) h.symm, rfl⟩
  · split_ifs at h with hdegraded
    rw [Option.some.injEq] at h
    exact ⟨h ▸ hthreshold, rfl⟩

/-! ## Risk -/

theorem unit_factors (h : ∀ x ∈ scores, Unit x) : ∀ x ∈ scores.map fun score => sub 1 score, Unit x := by
  intro x hx
  obtain ⟨score, hmem, rfl⟩ := List.mem_map.1 hx
  exact (h score hmem).one_sub.nearest

theorem unit_riskOf (h : ∀ x ∈ scores, Unit x) : Unit (riskOf scores) :=
  (Binary64.unit_prod (unit_factors h)).one_sub.nearest

theorem abs_riskOf_sub_le (h : ∀ x ∈ scores, Unit x) :
    |riskOf scores - (1 - (scores.map fun score => sub 1 score).prod)| ≤ (scores.length + 1) * epsilon := by
  have hproduct := Binary64.abs_prod_sub_le (unit_factors h)
  have hround : |riskOf scores - (1 - prod (scores.map fun score => sub 1 score))| ≤ epsilon :=
    Binary64.abs_nearest_sub_le (Binary64.unit_prod (unit_factors h)).one_sub.abs_le
  rw [List.length_map] at hproduct
  rw [abs_le] at hproduct hround ⊢
  constructor <;> linarith [hproduct.1, hproduct.2, hround.1, hround.2]

/-- **The risk of the same scores in another order** is off by roundings only. -/
theorem riskOf_perm {scores' : List ℚ} (h : ∀ x ∈ scores, Unit x) (hp : scores.Perm scores') :
    |riskOf scores - riskOf scores'| ≤ 2 * (scores.length + 1) * epsilon := by
  have hx := abs_riskOf_sub_le h
  have hy := abs_riskOf_sub_le fun x hx => h x (hp.mem_iff.2 hx)
  rw [← (hp.map _).prod_eq, ← hp.length_eq] at hy
  rw [abs_le] at hx hy ⊢
  constructor <;> linarith [hx.1, hx.2, hy.1, hy.2]

/-- three signals together reach the threshold of a decline -/
theorem nineTenths_le_riskOf (h : ∀ x ∈ scores, Signal x) (hthree : 3 ≤ scores.length) (hten : scores.length ≤ 10) :
    nineTenths ≤ riskOf scores := by
  obtain ⟨x, y, z, rest, rfl⟩ : ∃ x y z rest, scores = x :: y :: z :: rest := by
    match scores, hthree with
    | x :: y :: z :: rest, _ => exact ⟨x, y, z, rest, rfl⟩
  have hunit : ∀ s ∈ x :: y :: z :: rest, Unit s := fun s hs => (h s hs).1
  have hfactor : ∀ s ∈ x :: y :: z :: rest, Unit (sub 1 s) ∧ sub 1 s ≤ 2 / 5 + 3 * epsilon := by
    intro s hs
    have hsub := Binary64.abs_nearest_sub_le (hunit s hs).one_sub.abs_le
    refine ⟨(hunit s hs).one_sub.nearest, ?_⟩
    have hsignal := (h s hs).2
    rw [abs_le] at hsub
    have hle : sub 1 s - (1 - s) ≤ epsilon := hsub.2
    linarith
  obtain ⟨hx, hx'⟩ := hfactor x (by simp)
  obtain ⟨hy, hy'⟩ := hfactor y (by simp)
  obtain ⟨hz, hz'⟩ := hfactor z (by simp)
  have hrest := Unit.prod (unit_factors fun s hs => hunit s (by simp [hs]) : ∀ s ∈ rest.map fun s => sub 1 s, Unit s)
  have hproduct : (((x :: y :: z :: rest).map fun s => sub 1 s).prod : ℚ) ≤ (2 / 5 + 3 * epsilon) ^ 3 := by
    simp only [List.map_cons, List.prod_cons]
    calc sub 1 x * (sub 1 y * (sub 1 z * (rest.map fun s => sub 1 s).prod))
        ≤ sub 1 x * (sub 1 y * sub 1 z) := by
          refine mul_le_mul_of_nonneg_left (mul_le_mul_of_nonneg_left ?_ hy.1) hx.1
          exact mul_le_of_le_one_right hz.1 hrest.2
      _ ≤ (2 / 5 + 3 * epsilon) * ((2 / 5 + 3 * epsilon) * (2 / 5 + 3 * epsilon)) := by
          have hbase : 0 ≤ 2 / 5 + 3 * epsilon := hx.1.trans hx'
          exact mul_le_mul hx' (mul_le_mul hy' hz' hz.1 hbase) (mul_nonneg hy.1 hz.1) hbase
      _ = (2 / 5 + 3 * epsilon) ^ 3 := by ring
  have hrisk := abs_riskOf_sub_le hunit
  have htenths : |nineTenths - 9 / 10| ≤ epsilon := Binary64.abs_nearest_sub_le (by norm_num)
  have hlength : ((x :: y :: z :: rest).length : ℚ) ≤ 10 := by exact_mod_cast hten
  have hbound : (((x :: y :: z :: rest).length : ℚ) + 1) * epsilon ≤ 11 * epsilon :=
    mul_le_mul_of_nonneg_right (by linarith) Binary64.epsilon_pos.le
  have hsmall : (2 / 5 + 3 * epsilon) ^ 3 + 12 * epsilon ≤ 1 / 10 := by
    unfold epsilon
    norm_num
  rw [abs_le] at hrisk htenths
  linarith [hrisk.1, htenths.2]

/-! ## What an evaluation returns -/

/-- the reasons and scores of an evaluation, in the order they are raised -/
def RuleManifest.components (m : RuleManifest) (event : ObservedEvent) (values : Dict String ℚ) :
    List (DefenseReason × ℚ) :=
  (mandatoryReasons event).map (fun reason => (reason, 1)) ++ raised (m.signals values)

/-- the hits of an evaluation, in canonical order -/
def RuleManifest.hits (m : RuleManifest) (event : ObservedEvent) (vector : FeatureVector ℚ) : List RuleHit :=
  let evidence := sortedSet (event.eventId :: vector.sourceEventIds)
  sortBy hitOrder ((m.components event vector.values).map fun c => m.hitOf evidence c.1 c.2 c.1.mandatory)

theorem mandatory_of_mem {event : ObservedEvent} (h : reason ∈ mandatoryReasons event) : reason.mandatory = true := by
  unfold mandatoryReasons at h
  rcases List.mem_append.1 h with h | h
  · split_ifs at h
    · rw [List.mem_singleton.1 h]
      rfl
    · cases h
  · split_ifs at h
    · rw [List.mem_singleton.1 h]
      rfl
    · cases h

theorem nodup_mandatoryReasons (event : ObservedEvent) : (mandatoryReasons event).Nodup := by
  unfold mandatoryReasons
  dsimp only
  split_ifs <;> decide

theorem raised_sublist {α : Type} (signals : List (α × Option ℚ)) :
    ((raised signals).map Prod.fst).Sublist (signals.map Prod.fst) := by
  induction signals with
  | nil => exact .slnil
  | cons s signals ih =>
    obtain ⟨a, score⟩ := s
    cases score with
    | none => exact ih.cons a
    | some score => exact ih.cons_cons a

/-- no reason is raised twice -/
theorem nodup_components (m : RuleManifest) (event : ObservedEvent) (values : Dict String ℚ) :
    ((m.components event values).map Prod.fst).Nodup := by
  have hsignals : ((m.signals values).map Prod.fst).Nodup := by
    simp only [RuleManifest.signals, List.map_cons, List.map_nil]
    decide
  have hmandatory : ∀ reason ∈ (m.signals values).map Prod.fst, reason.mandatory = false := by
    simp only [RuleManifest.signals, List.map_cons, List.map_nil]
    decide
  unfold RuleManifest.components
  rw [List.map_append, List.map_map]
  refine List.nodup_append.2 ⟨?_, hsignals.sublist (raised_sublist _), ?_⟩
  · simpa [Function.comp_def] using nodup_mandatoryReasons event
  · rintro a ha b hb rfl
    have hgate := mandatory_of_mem (by simpa [Function.comp_def] using ha)
    rw [hmandatory a ((raised_sublist _).subset hb)] at hgate
    cases hgate

theorem component_score {event : ObservedEvent} {values : Dict String ℚ}
    (h : (reason, score) ∈ ({} : RuleManifest).components event values) :
    Signal score ∧ (reason.mandatory = true → score = 1) := by
  rcases List.mem_append.1 h with h | h
  · obtain ⟨_, _, heq⟩ := List.mem_map.1 h
    rw [← (Prod.mk.inj heq).2]
    exact ⟨⟨⟨zero_le_one, le_rfl⟩, by linarith [Binary64.epsilon_pos]⟩, fun _ => rfl⟩
  · obtain ⟨hsignal, hrule⟩ := signal_of_raised h
    exact ⟨hsignal, fun hgate => by rw [hrule] at hgate; cases hgate⟩

theorem hit_eq_ok {m : RuleManifest} (hm : m.Valid) {evidence : List String}
    (hcanonical : evidence = sortedSet evidence) (hscore : Unit score) (hone : reason.mandatory = true → score = 1) :
    m.hit evidence reason score reason.mandatory = .ok (m.hitOf evidence reason score reason.mandatory) := by
  have hvalid : (m.hitOf evidence reason score reason.mandatory).validate = .ok () := by
    have hlast : (reason.mandatory = false ∨ score = 1) := by
      cases hmandatory : reason.mandatory with
      | false => exact .inl rfl
      | true => exact .inr (hone hmandatory)
    simp only [RuleHit.validate, RuleManifest.hitOf, except_bind_eq_ok, check_eq_ok, exists_const, decide_eq_true_eq,
      Bool.or_eq_true, Bool.not_eq_true']
    exact ⟨decide_eq_true hscore.1, decide_eq_true hscore.2, decide_eq_true hcanonical, hm.version, trivial, trivial,
      hlast.imp id decide_eq_true⟩
  unfold RuleManifest.hit
  simp only [hvalid, except_ok_bind]
  rfl

theorem unit_aggregateRisk {hits : List RuleHit} (h : ∀ hit ∈ hits, Unit hit.score) : Unit (aggregateRisk hits) := by
  refine unit_riskOf fun x hx => ?_
  obtain ⟨hit, hmem, rfl⟩ := List.mem_map.1 hx
  exact h hit hmem

/-- **An evaluation returns.** Over an observation and its own vector, no hit and no result fails a validator. -/
theorem evaluate_eq_ok {event : ObservedEvent} {vector : FeatureVector ℚ} (hid : event.eventId = vector.eventId)
    (hdecision : event.decisionAt = some vector.decisionAt) (hne : event.eventId ≠ "")
    (hdigest : isDigestText vector.catalogDigest = true) :
    ({} : RuleManifest).evaluate event vector = .ok {
      hits := ({} : RuleManifest).hits event vector
      score := aggregateRisk (({} : RuleManifest).hits event vector)
      manifestVersion := "1.0.0"
      eventId := event.eventId
      decisionAt := vector.decisionAt
      catalogDigest := vector.catalogDigest } := by
  set m : RuleManifest := {} with hm
  set evidence := sortedSet (event.eventId :: vector.sourceEventIds) with hevidence
  have hcanonical : evidence = sortedSet evidence := sortedSet_congr fun x => by rw [hevidence, mem_sortedSet]
  have hgates : (mandatoryReasons event).mapM (fun reason => m.hit evidence reason 1 true) =
      .ok (((mandatoryReasons event).map fun reason => (reason, (1 : ℚ))).map fun c =>
        m.hitOf evidence c.1 c.2 c.1.mandatory) := by
    rw [List.map_map, mapM_eq_ok, List.forall₂_map_right_iff, List.forall₂_same]
    intro reason hreason
    have : m.hit evidence reason 1 reason.mandatory = .ok (m.hitOf evidence reason 1 reason.mandatory) :=
      hit_eq_ok RuleManifest.valid_default hcanonical ⟨zero_le_one, le_rfl⟩ fun _ => rfl
    rw [Function.comp_apply, mandatory_of_mem hreason]
    rwa [mandatory_of_mem hreason] at this
  have hrules : (raised (m.signals vector.values)).mapM (fun s => m.hit evidence s.1 s.2 false) =
      .ok ((raised (m.signals vector.values)).map fun c => m.hitOf evidence c.1 c.2 c.1.mandatory) := by
    rw [mapM_eq_ok, List.forall₂_map_right_iff, List.forall₂_same]
    rintro ⟨reason, score⟩ hraised
    obtain ⟨hsignal, hrule⟩ := signal_of_raised hraised
    have : m.hit evidence reason score reason.mandatory = .ok (m.hitOf evidence reason score reason.mandatory) :=
      hit_eq_ok RuleManifest.valid_default hcanonical hsignal.1 fun hgate => by rw [hrule] at hgate; cases hgate
    rw [hrule]
    rwa [hrule] at this
  have hordered : sortBy hitOrder ((((mandatoryReasons event).map fun reason => (reason, (1 : ℚ))).map fun c =>
      m.hitOf evidence c.1 c.2 c.1.mandatory) ++
        (raised (m.signals vector.values)).map fun c => m.hitOf evidence c.1 c.2 c.1.mandatory) =
      m.hits event vector := by
    rw [← List.map_append]
    rfl
  have hmem : ∀ hit ∈ m.hits event vector, ∃ c ∈ m.components event vector.values,
      hit = m.hitOf evidence c.1 c.2 c.1.mandatory := by
    intro hit hhit
    obtain ⟨c, hc, rfl⟩ := List.mem_map.1 (mem_sortBy.1 hhit)
    exact ⟨c, hc, rfl⟩
  have hunit : Unit (aggregateRisk (m.hits event vector)) := unit_aggregateRisk fun hit hhit => by
    obtain ⟨c, hc, rfl⟩ := hmem hit hhit
    exact (component_score hc).1.1
  have hsorted : m.hits event vector = sortBy hitOrder (m.hits event vector) :=
    (sortBy_of_sorted (sortBy_sorted _ _)).symm
  have hreasons : ((m.hits event vector).map RuleHit.reason).Nodup := by
    refine (((sortBy_perm hitOrder _).map _).nodup_iff).2 ?_
    rw [List.map_map]
    exact nodup_components m event vector.values
  have hversions : ((m.hits event vector).all fun hit => hit.ruleVersion = "1.0.0") = true := by
    rw [List.all_eq_true]
    intro hit hhit
    obtain ⟨c, -, rfl⟩ := hmem hit hhit
    rfl
  have hblank : vector.catalogDigest ≠ "" := by
    rintro heq
    rw [heq] at hdigest
    cases hdigest
  have hversion : isSemanticVersion "1.0.0" = true := by decide
  unfold RuleManifest.evaluate
  simp only [hid, hdecision, Option.all_some, decide_true, check, if_true, except_ok_bind]
  rw [hid] at hevidence
  rw [← hevidence, hgates, except_ok_bind, hrules, except_ok_bind, hordered]
  have hvalidate : ({ hits := m.hits event vector
                      score := aggregateRisk (m.hits event vector)
                      manifestVersion := m.version
                      eventId := event.eventId
                      decisionAt := vector.decisionAt
                      catalogDigest := vector.catalogDigest } : RuleResult).validate = .ok () := by
    simp only [RuleResult.validate, except_bind_eq_ok, check_eq_ok, exists_const, decide_eq_true_eq, Bool.and_eq_true]
    exact ⟨hunit.1, hunit.2, hversion, hdigest, hsorted, hreasons, hversions, trivial, hne, hblank⟩
  rw [hid] at hvalidate
  rw [hvalidate]
  rfl

end Apar
