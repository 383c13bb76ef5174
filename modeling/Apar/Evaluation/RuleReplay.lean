/-
The independent replay of the rule pipeline (`_expected_rule_components` and `_rule_action` of
`v5_independent_verifier.py`), against the rule engine over a retained event.

- `components_of_engine`: without the missing-currency gate the two raise the same components.
- `replay_agrees`: then the scores agree up to the verifier's tolerance and the actions are equal; the order in which
  the factors are multiplied moves no score across a threshold of a rule arm.
- `rule_replay_exact`: the replay agrees with the pipeline on every retained event that has a currency or is no decision
  of its rail, and on no other: the verifier does not ask for a currency.
-/
import Apar.Defense.Rules
import Apar.Evaluation.BinaryMetrics
import Apar.Features.RuleSources

namespace Apar

open Exec

namespace RuleReplay

open Binary64 (add sub mul div epsilon Unit)
open Rules

/-! ## The verifier -/

/-- what `_expected_rule_components` reads of a row, its specification and its event -/
structure ReplayRow where
  catalogFeatureNames : List String
  catalogFeatureValues : List ℚ
  /-- `row["support"]["integrity_status"]` -/
  integrityStatus : String
  /-- `event["rail"]` -/
  rail : String
  /-- `event["event_type"]` -/
  eventType : String

/-- `score` -/
def score (value threshold : ℚ) : Option ℚ :=
  if value < threshold then none
  else some (min 1 (add threeFifths (mul oneFifth (sub (div value threshold) 1))))

/-- `allowed` -/
def allowed : Dict String (List String) :=
  .ofList [("card", ["authorization", "authorization_declined"]), ("a2a", ["transfer_initiated"]),
    ("agentic", ["authorization", "authentication_challenge", "authorization_declined"])]

/-- `coherent` -/
def coherent (row : ReplayRow) : Bool :=
  (allowed.getD row.rail []).contains row.eventType &&
    (if row.rail = "agentic" then ["pass", "fail"] else ["not_applicable"]).contains row.integrityStatus

/-- a component that is there under a condition -/
def setSome (components : Dict String ℚ) (reason : String) (value : Option ℚ) : Dict String ℚ :=
  match value with
  | some v => components.set reason v
  | none => components

/-- the components, and whether a name and a value are missing one another (`zip(strict=True)`) -/
def expectedRuleComponents (row : ReplayRow) : Option (List (String × ℚ)) :=
  if row.catalogFeatureNames.length ≠ row.catalogFeatureValues.length then none
  else
    let feature := Dict.ofList (row.catalogFeatureNames.zip row.catalogFeatureValues)
    let value (name : String) : ℚ := feature.getD name 0
    let actorScores := [score (value "actor_count_1m") 4, score (value "actor_count_10m") 8].reduceOption
    let rules : List (String × ℚ × ℚ) :=
      [("GRAPH_FAN_IN", value "graph_counterparty_fanin", 5), ("GRAPH_FAN_OUT", value "graph_actor_fanout", 5),
        ("AMOUNT_DEVIATION",
          max |value "actor_amount_zscore_24h"| |value "counterparty_amount_zscore_24h"|, 4),
        ("GRAPH_SHARED_NEIGHBOR", value "graph_shared_neighbor_count", 3),
        ("COUNTERPARTY_VELOCITY", value "pair_prior_count", 4)]
    let gates := setSome (setSome ∅ "INTEGRITY_FAILURE"
        (if row.rail = "agentic" && coherent row && row.integrityStatus = "fail" then some 1 else none))
      "REQUIRED_DATA_MISSING" (if coherent row then none else some 1)
    let components := rules.foldl (fun c r => setSome c r.1 (score r.2.1 r.2.2))
      (setSome gates "ACTOR_VELOCITY" actorScores.max?)
    let components := setSome components "FEATURE_STATE_DEGRADED"
      (if 1 ≤ value "dq_degraded_state" then some threeFifths else none)
    some ((sortBy id components.keys).map fun name => (name, components.getD name 0))

/-- `expected_rule_score` -/
def expectedRuleScore (components : List (String × ℚ)) : ℚ := riskOf (components.map Prod.snd)

open V5 (SentinelAction)

/-- `_rule_action`, of a specification's thresholds -/
def ruleAction (rulesDecline rulesChallenge score : ℚ) : SentinelAction :=
  if rulesDecline ≤ score then .declineHold
  else if rulesChallenge ≤ score then .challenge
  else .approve

/-- `_close` -/
def close (x y : ℚ) : Bool := Binary64.isClose (Binary64.nearest (1 / 10 ^ 12)) (Binary64.nearest (1 / 10 ^ 12)) x y

/-! ## The pipeline -/

/-- a retained event: a valid event that was decided when it became available, and its observation -/
structure RetainedEvent where
  event : PaymentEvent
  observed : ObservedEvent
  valid : event.validate = .ok ()
  decided : event.decisionAt = some event.availableAt
  scrubbed : scrubEvent event = .ok observed

/-- a row of finite feature values under the names of its catalog -/
structure FeatureRow where
  names : List String
  values : List ℚ
  complete : names.length = values.length

/-- the sources of a row and the digest of its catalog -/
structure Provenance where
  sourceEventIds : List String
  maxSourceAvailableAt : Option Time
  catalogSha256 : String
  digest : isDigestText catalogSha256 = true

/-- the vector that `replay_v5_rule_result` evaluates -/
def RetainedEvent.vector (r : RetainedEvent) (row : FeatureRow) (provenance : Provenance) : FeatureVector ℚ where
  eventId := r.observed.eventId
  decisionAt := r.event.availableAt
  sourceEventIds := provenance.sourceEventIds
  maxSourceAvailableAt := provenance.maxSourceAvailableAt
  catalogDigest := provenance.catalogSha256
  values := .ofList (row.names.zip row.values)

/-- `integrity_status`, as the support of the event states it -/
def statusText : IntegrityStatus → String
  | .pass => "pass"
  | .fail => "fail"
  | .notApplicable => "not_applicable"

/-- what the verifier reads of the same event and row -/
def RetainedEvent.replayRow (r : RetainedEvent) (row : FeatureRow) : ReplayRow where
  catalogFeatureNames := row.names
  catalogFeatureValues := row.values
  integrityStatus := statusText r.observed.integrityStatus
  rail := r.event.rail.value
  eventType := r.event.eventType.value

/-- `rule_components`: the hits by reason and score, in order -/
def ruleComponents (result : RuleResult) : List (String × ℚ) :=
  (sortBy toLex (result.hits.map fun hit => (hit.reason.value, hit.score)) : List (String × ℚ))

/-- `_rule_action` of the executed arms -/
def executedAction (score : ℚ) : SentinelAction :=
  if nineTenths ≤ score then .declineHold
  else if threeFifths ≤ score then .challenge
  else .approve

/-- the replay reproduces a result: its components, its score and its action -/
structure Agrees (result : RuleResult) (expected : List (String × ℚ)) : Prop where
  components : ruleComponents result = expected
  score : close result.score (expectedRuleScore expected) = true
  action : executedAction result.score = ruleAction nineTenths threeFifths (expectedRuleScore expected)

namespace RetainedEvent

variable (r : RetainedEvent)

theorem observed_eq : ∃ paymentId, paymentId ≠ "" ∧ r.observed = observe r.event paymentId := by
  have h := r.scrubbed
  unfold scrubEvent at h
  cases hpayment : r.event.paymentId? with
  | none => rw [hpayment] at h; cases h
  | some paymentId =>
    simp only [hpayment] at h
    split_ifs at h with hempty
    rw [Except.ok.injEq] at h
    exact ⟨paymentId, hempty, h.symm⟩

theorem texts : r.event.eventId ≠ "" ∧ r.event.actorId ≠ "" ∧ r.event.counterpartyId ≠ "" ∧
    Decimal.ble 0 r.event.amount = true := by
  have h := r.valid
  have hempty : validUuid "" = false := by decide
  unfold PaymentEvent.validate at h
  obtain ⟨_, -, h⟩ := except_bind_eq_ok.1 h
  split_ifs at h with hids _ _ _ hamount
  simp only [Bool.not_eq_true', Bool.not_eq_false, List.all_cons, List.all_nil, Bool.and_true, Bool.and_eq_true] at hids
  obtain ⟨hevent, -, -, hactor, hcp⟩ := hids
  refine ⟨?_, ?_, ?_, by simpa using hamount⟩
  · intro heq
    rw [heq, hempty] at hevent
    cases hevent
  · intro heq
    rw [heq, hempty] at hactor
    cases hactor
  · intro heq
    rw [heq, hempty] at hcp
    cases hcp

/-- the event is a decision of its rail -/
def isDecision : Bool := isDecisionPoint r.event.rail r.event.eventType

end RetainedEvent

/-! ## Coherence -/

theorem kinds_agree (rail : Rail) (kind : EventKind) :
    (allowed.getD rail.value []).contains kind.value = isDecisionPoint rail kind ∧
      (allowedKinds rail).contains kind = isDecisionPoint rail kind := by
  cases rail <;> cases kind <;> decide

theorem statuses_agree (rail : Rail) (status : IntegrityStatus) :
    (if rail.value = "agentic" then ["pass", "fail"] else ["not_applicable"]).contains (statusText status) =
      (expectedIntegrity rail).contains status := by
  cases rail <;> cases status <;> decide

theorem integrity_expected (e : PaymentEvent) : (expectedIntegrity e.rail).contains (integrity e).1 = true := by
  unfold integrity
  cases e.rail with
  | card => rfl
  | a2a => rfl
  | agentic =>
    simp only [ne_eq, not_true_eq_false, if_false]
    split
    · rfl
    · split <;> rfl
    · rfl

namespace RetainedEvent

variable (r : RetainedEvent) (row : FeatureRow)

theorem status_expected : (expectedIntegrity r.event.rail).contains r.observed.integrityStatus = true := by
  obtain ⟨paymentId, -, hobserved⟩ := r.observed_eq
  rw [hobserved]
  exact integrity_expected r.event

theorem coherent_replayRow : coherent (r.replayRow row) = r.isDecision := by
  have hstatus := r.status_expected
  rw [← statuses_agree] at hstatus
  unfold coherent replayRow isDecision
  rw [(kinds_agree _ _).1, hstatus, Bool.and_true]

theorem coherentSchema_observed : coherentSchema r.observed = r.isDecision := by
  have hstatus := r.status_expected
  obtain ⟨paymentId, -, hobserved⟩ := r.observed_eq
  have hdecided : r.observed.decisionAt = some r.event.availableAt := by
    rw [hobserved]
    exact r.decided
  unfold coherentSchema
  rw [hdecided, show r.observed.rail = r.event.rail by rw [hobserved]; rfl, hstatus,
    show r.observed.isDecisionPoint = isDecisionPoint r.event.rail r.event.eventType by rw [hobserved]; rfl,
    show r.observed.eventType = r.event.eventType by rw [hobserved]; rfl, (kinds_agree _ _).2]
  simp [isDecision]

/-- the gate of a failed receipt -/
def failedReceipt : Bool :=
  r.isDecision && r.event.rail = .agentic && r.observed.integrityStatus = .fail

theorem mandatoryReasons_observed : mandatoryReasons r.observed =
    (if r.failedReceipt then [.integrityFailure] else []) ++
      if r.event.currency = "" || !r.isDecision then [.requiredDataMissing] else [] := by
  obtain ⟨hevent, hactor, hcp, hamount⟩ := r.texts
  have hcoherent := r.coherentSchema_observed
  obtain ⟨paymentId, hpayment, hobserved⟩ := r.observed_eq
  unfold mandatoryReasons failedReceipt
  rw [hcoherent, hobserved]
  simp only [observe, hevent, hpayment, hactor, hcp, hamount, r.decided, decide_false, Bool.false_or, Bool.or_false,
    Option.isNone_some, Bool.not_true]

/-! ## Components -/

/-- the values that both sides read by name -/
def featureValues (row : FeatureRow) : Dict String ℚ := .ofList (row.names.zip row.values)

/-- the verifier's components in the order they are set, those that are not there included -/
def signals : List (String × Option ℚ) :=
  [("INTEGRITY_FAILURE", if r.failedReceipt then some 1 else none),
    ("REQUIRED_DATA_MISSING", if r.isDecision then none else some 1)] ++
    (({} : RuleManifest).signals (featureValues row)).map fun s => (s.1.value, s.2)

end RetainedEvent

theorem setSome_foldl (signals : List (String × Option ℚ)) (c : Dict String ℚ) :
    signals.foldl (fun c s => setSome c s.1 s.2) c = (raised signals).foldl (fun c p => c.set p.1 p.2) c := by
  induction signals generalizing c with
  | nil => rfl
  | cons s signals ih =>
    obtain ⟨reason, value⟩ := s
    cases value with
    | none => exact ih c
    | some v => exact ih (c.set reason v)

theorem raised_map {α β : Type} (f : α → β) (signals : List (α × Option ℚ)) :
    raised (signals.map fun s => (f s.1, s.2)) = (raised signals).map fun c => (f c.1, c.2) := by
  unfold raised
  rw [List.filterMap_map, List.map_filterMap]
  refine List.filterMap_congr fun s _ => ?_
  obtain ⟨a, value⟩ := s
  cases value <;> rfl

theorem raised_append {α : Type} (xs ys : List (α × Option ℚ)) : raised (xs ++ ys) = raised xs ++ raised ys :=
  List.filterMap_append

theorem sorted_items (d : Dict String ℚ) :
    (sortBy id d.keys).map (fun name => (name, d.getD name 0)) = sortBy Prod.fst d.items := by
  have hitems : d.keys.map (fun name => (name, d.getD name 0)) = d.items := by
    unfold Dict.keys
    rw [List.map_map]
    refine (List.map_congr_left fun p hp => ?_).trans (List.map_id d.items)
    have hget := Dict.get?_eq_some.2 hp
    simp [Dict.getD, hget]
  have hsorted := map_sortBy Prod.fst (fun name => (name, d.getD name 0)) d.keys
  rw [hitems] at hsorted
  exact hsorted

namespace RetainedEvent

variable (r : RetainedEvent) (row : FeatureRow)

theorem failedReceipt_replayRow : (decide ((r.replayRow row).rail = "agentic") && coherent (r.replayRow row) &&
    decide ((r.replayRow row).integrityStatus = "fail")) = r.failedReceipt := by
  have hrail : decide (r.event.rail.value = "agentic") = decide (r.event.rail = .agentic) := by
    cases r.event.rail <;> decide
  have hstatus : decide (statusText r.observed.integrityStatus = "fail") =
      decide (r.observed.integrityStatus = .fail) := by
    cases r.observed.integrityStatus <;> decide
  rw [coherent_replayRow]
  unfold failedReceipt replayRow
  rw [hrail, hstatus, Bool.and_comm (r.isDecision)]

theorem nodup_signals : ((raised (r.signals row)).map Prod.fst).Nodup := by
  refine List.Nodup.sublist (raised_sublist _) ?_
  simp only [signals, RuleManifest.signals, List.map_cons, List.map_nil, List.cons_append, List.nil_append]
  decide

/-- **The verifier's components** of a retained event, by name -/
theorem expectedRuleComponents_eq :
    expectedRuleComponents (r.replayRow row) = some (sortBy Prod.fst (raised (r.signals row))) := by
  have hcomplete : ¬(r.replayRow row).catalogFeatureNames.length ≠ (r.replayRow row).catalogFeatureValues.length :=
    not_not.2 row.complete
  have hitems : (Dict.ofList (raised (r.signals row))).items = raised (r.signals row) :=
    Dict.items_ofList (r.nodup_signals row)
  have hchain : Dict.ofList (raised (r.signals row)) = (r.signals row).foldl (fun c s => setSome c s.1 s.2) ∅ :=
    (setSome_foldl (r.signals row) ∅).symm
  unfold expectedRuleComponents
  rw [if_neg hcomplete, failedReceipt_replayRow, coherent_replayRow]
  rw [← hitems, ← sorted_items, hchain]
  rfl

/-- what the engine raises, by reason and score -/
def raisedPairs : List (String × ℚ) :=
  (({} : RuleManifest).components r.observed (featureValues row)).map fun c => (c.1.value, c.2)

theorem raisedPairs_eq (h : r.event.currency ≠ "" ∨ r.isDecision = false) : r.raisedPairs row = raised (r.signals row) := by
  have hmissing : (decide (r.event.currency = "") || !r.isDecision) = !r.isDecision := by
    rcases h with h | h
    · simp [h]
    · simp [h]
  unfold raisedPairs RuleManifest.components signals
  rw [r.mandatoryReasons_observed, hmissing, raised_append, raised_map, List.map_append]
  congr 1
  cases r.failedReceipt <;> cases r.isDecision <;> rfl

theorem raisedPairs_ne (hcurrency : r.event.currency = "") (hdecision : r.isDecision = true) :
    ("REQUIRED_DATA_MISSING", 1) ∈ r.raisedPairs row ∧ ("REQUIRED_DATA_MISSING", 1) ∉ raised (r.signals row) := by
  constructor
  · unfold raisedPairs RuleManifest.components
    rw [r.mandatoryReasons_observed, hcurrency]
    simp [DefenseReason.value]
  · rw [mem_raised]
    simp [signals, RuleManifest.signals, hdecision, DefenseReason.value]

end RetainedEvent

/-! ## Agreement -/

/-- up to two scores, the order of the factors changes nothing -/
theorem riskOf_short {scores scores' : List ℚ} (hp : scores.Perm scores') (hlength : scores.length ≤ 2) :
    riskOf scores = riskOf scores' := by
  match scores, hlength with
  | [], _ => rw [hp.symm.eq_nil]
  | [a], _ => rw [List.perm_singleton.1 hp.symm]
  | [a, b], _ =>
    have hmem : ∃ c d, scores' = [c, d] := List.length_eq_two.1 hp.symm.length_eq
    obtain ⟨c, d, rfl⟩ := hmem
    rcases List.mem_pair.1 (hp.mem_iff.2 (List.mem_cons_self ..)) with rfl | rfl
    · rw [List.perm_singleton.1 ((List.perm_cons _).1 hp).symm]
    · have hswap := (List.perm_cons c).1 ((List.Perm.swap a c []).trans hp)
      rw [List.perm_singleton.1 hswap.symm]
      unfold riskOf
      rw [List.map_cons, List.map_cons, List.map_nil, Binary64.prod_pair]
      rfl

theorem action_perm {scores scores' : List ℚ} (h : ∀ x ∈ scores, Signal x) (hten : scores.length ≤ 10)
    (hp : scores.Perm scores') :
    executedAction (riskOf scores) = ruleAction nineTenths threeFifths (riskOf scores') := by
  rcases Nat.lt_or_ge 2 scores.length with hthree | htwo
  · have hleft := nineTenths_le_riskOf h hthree hten
    have hright := nineTenths_le_riskOf (fun x hx => h x (hp.mem_iff.2 hx)) (hp.length_eq ▸ hthree) (hp.length_eq ▸ hten)
    unfold executedAction ruleAction
    rw [if_pos hleft, if_pos hright]
  · rw [riskOf_short hp htwo]
    rfl

theorem close_perm {scores scores' : List ℚ} (h : ∀ x ∈ scores, Signal x) (hten : scores.length ≤ 10)
    (hp : scores.Perm scores') : close (riskOf scores) (riskOf scores') = true := by
  have hdiff := riskOf_perm (fun x hx => (h x hx).1) hp
  have hlength : (scores.length : ℚ) ≤ 10 := by exact_mod_cast hten
  have hbound : 2 * ((scores.length : ℚ) + 1) * epsilon ≤ 22 * epsilon :=
    mul_le_mul_of_nonneg_right (by linarith) Binary64.epsilon_pos.le
  have htolerance : |Binary64.nearest (1 / 10 ^ 12) - 1 / 10 ^ 12| ≤ epsilon :=
    Binary64.abs_nearest_sub_le (by norm_num)
  have hsmall : 24 * epsilon ≤ 1 / 10 ^ 12 := by
    unfold epsilon
    norm_num
  have hone : 22 * epsilon ≤ 1 := by
    unfold epsilon
    norm_num
  rw [abs_le] at htolerance
  exact Binary64.isClose_of_abs_sub_le (by linarith) (by linarith [htolerance.1])

namespace RetainedEvent

variable (r : RetainedEvent) (row : FeatureRow) (provenance : Provenance)

theorem evaluate_retained : ∃ result, ({} : RuleManifest).evaluate r.observed (r.vector row provenance) = .ok result ∧
    result.hits = ({} : RuleManifest).hits r.observed (r.vector row provenance) ∧
    result.score = aggregateRisk result.hits := by
  obtain ⟨hevent, -, -, -⟩ := r.texts
  obtain ⟨paymentId, -, hobserved⟩ := r.observed_eq
  have hdecision : r.observed.decisionAt = some (r.vector row provenance).decisionAt := by
    rw [hobserved]
    exact r.decided
  have hne : r.observed.eventId ≠ "" := by rwa [hobserved]
  exact ⟨_, evaluate_eq_ok rfl hdecision hne provenance.digest, rfl, rfl⟩

theorem nodup_raisedPairs : ((r.raisedPairs row).map Prod.fst).Nodup := by
  have hnodup := (nodup_components {} r.observed (featureValues row)).map DefenseReason.value_injective
  rw [List.map_map] at hnodup
  unfold raisedPairs
  rw [List.map_map]
  exact hnodup

theorem hits_perm : (({} : RuleManifest).hits r.observed (r.vector row provenance)).map
    (fun hit => (hit.reason.value, hit.score)) |>.Perm (r.raisedPairs row) := by
  refine ((sortBy_perm hitOrder _).map _).trans (List.Perm.of_eq ?_)
  rw [List.map_map]
  rfl

theorem ruleComponents_eq {result : RuleResult}
    (h : result.hits = ({} : RuleManifest).hits r.observed (r.vector row provenance)) :
    ruleComponents result = sortBy Prod.fst (r.raisedPairs row) := by
  have hperm := r.hits_perm row provenance
  unfold ruleComponents
  rw [h]
  refine eq_of_perm_of_sortedKeys (((sortBy_perm _ _).trans hperm).trans (sortBy_perm _ _).symm) ?_ ?_
    (sortBy_sorted _ _)
  · exact ((((sortBy_perm _ _).trans hperm).map _).nodup_iff).2 (r.nodup_raisedPairs row)
  · exact (sortBy_sorted toLex _).imp fun hle => Prod.Lex.monotone_fst _ _ hle

theorem signal_scores {x : ℚ} (hx : x ∈ (r.raisedPairs row).map Prod.snd) : Signal x := by
  obtain ⟨p, hp, rfl⟩ := List.mem_map.1 hx
  obtain ⟨c, hc, rfl⟩ := List.mem_map.1 hp
  exact (component_score hc).1

theorem length_raisedPairs : (r.raisedPairs row).length ≤ 10 := by
  have hgates : (mandatoryReasons r.observed).length ≤ 2 := by
    rw [r.mandatoryReasons_observed, List.length_append]
    split_ifs <;> simp
  have hrules : (raised (({} : RuleManifest).signals (featureValues row))).length ≤ 7 := by
    have := (raised_sublist (({} : RuleManifest).signals (featureValues row))).length_le
    simpa [RuleManifest.signals] using this
  unfold raisedPairs RuleManifest.components
  rw [List.length_map, List.length_append, List.length_map]
  omega

/-- **When the replay agrees.** -/
theorem agrees_iff {result : RuleResult}
    (hhits : result.hits = ({} : RuleManifest).hits r.observed (r.vector row provenance))
    (hscore : result.score = aggregateRisk result.hits) :
    Agrees result (sortBy Prod.fst (raised (r.signals row))) ↔ r.event.currency ≠ "" ∨ r.isDecision = false := by
  have hcomponents := r.ruleComponents_eq row provenance hhits
  constructor
  · intro h
    by_contra hboth
    rw [not_or, not_not, Bool.not_eq_false] at hboth
    obtain ⟨hengine, hverifier⟩ := r.raisedPairs_ne row hboth.1 hboth.2
    have hmem : ("REQUIRED_DATA_MISSING", 1) ∈ sortBy Prod.fst (raised (r.signals row)) := by
      rw [← h.components, hcomponents]
      exact mem_sortBy.2 hengine
    exact hverifier (mem_sortBy.1 hmem)
  · intro h
    have hsame := r.raisedPairs_eq row h
    have hperm : (result.hits.map RuleHit.score).Perm ((sortBy Prod.fst (raised (r.signals row))).map Prod.snd) := by
      have := (r.hits_perm row provenance).map Prod.snd
      rw [← hhits, List.map_map, hsame] at this
      exact this.trans ((sortBy_perm Prod.fst (raised (r.signals row))).map Prod.snd).symm
    have hraised : (result.hits.map RuleHit.score).Perm ((r.raisedPairs row).map Prod.snd) := by
      rw [hsame]
      exact hperm.trans ((sortBy_perm Prod.fst (raised (r.signals row))).map Prod.snd)
    have hsignal : ∀ x ∈ result.hits.map RuleHit.score, Signal x := fun x hx =>
      r.signal_scores row (hraised.mem_iff.1 hx)
    have hten : (result.hits.map RuleHit.score).length ≤ 10 := by
      rw [hraised.length_eq, List.length_map]
      exact r.length_raisedPairs row
    refine ⟨?_, ?_, ?_⟩
    · rw [hcomponents, hsame]
    · rw [hscore]
      exact close_perm hsignal hten hperm
    · rw [hscore]
      exact action_perm hsignal hten hperm

end RetainedEvent

end RuleReplay

open RuleReplay Sentinel in
/-- **The rule replay agrees but for a missing currency.** The sources of every retained row are the recorded ones, with
the same maximum availability; components, scores and actions agree exactly on the events that have a currency or are no
decision of their rail. -/
theorem rule_replay_exact [Sha256] {F : Type} [PyFloat F] :
    (∀ (rows : List (RetainedDecision F)) (catalog : SentinelFeatureCatalog), CoversRules catalog.featureNames →
      (rows.map fun r => r.support.eventId).Nodup → (∀ r ∈ rows, r.availableAt = r.decisionAt) →
      ∀ b, buildSentinelFeatures (rows.map RetainedDecision.row) catalog = .ok b → ∀ target ∈ rows,
        ∃ values vector provenance, b.emission? target.support.eventId = some (values, vector, provenance) ∧
          provenance.sourceEventIds = expectedRuleSources target.support (rows.map RetainedDecision.support)
            (allEventTimes rows) catalog.featureNames ∧
          provenance.maxSourceAvailableAt =
            (expectedMaximum (allEventTimes rows) provenance.sourceEventIds).map fun t => ⟨t, some 0⟩) ∧
    ∀ (r : RetainedEvent) (row : FeatureRow) (provenance : Provenance), ∃ result expected,
      ({} : RuleManifest).evaluate r.observed (r.vector row provenance) = .ok result ∧
      expectedRuleComponents (r.replayRow row) = some expected ∧
      (Agrees result expected ↔ r.event.currency ≠ "" ∨ r.isDecision = false) := by
  refine ⟨?_, ?_⟩
  · intro rows catalog hcovers hn htimes b hb target htarget
    exact recorded_sources hcovers hn htimes hb htarget
  · intro r row provenance
    obtain ⟨result, hresult, hhits, hscore⟩ := r.evaluate_retained row provenance
    exact ⟨result, _, hresult, r.expectedRuleComponents_eq row, r.agrees_iff row provenance hhits hscore⟩

/-! ## Samples -/

namespace RuleReplay

namespace Sample

/-- a declined card authorization that names no currency -/
def event (currency : String) : PaymentEvent where
  schemaVersion := "1.0.0"
  eventId := "00000000-0000-4000-8000-000000000001"
  campaignId := "00000000-0000-4000-8000-000000000002"
  traceId := "00000000-0000-4000-8000-000000000003"
  rail := .card
  viewpoint := "network"
  eventType := .authorizationDeclined
  amount := ⟨1050, -2⟩
  currency := currency
  eventTime := 0
  ingestedAt := 0
  availableAt := 0
  decisionAt := some 0
  actorId := "00000000-0000-4000-8000-000000000004"
  counterpartyId := "00000000-0000-4000-8000-000000000005"
  partyRefs := ∅
  railData := .ofList [("payment_id", .text "payment")]
  lineage := ∅
  privacy := ∅

def retained : RetainedEvent where
  event := event ""
  observed := observe (event "") "payment"
  valid := by decide
  decided := rfl
  scrubbed := scrubEvent_eq_ok (by decide) (by decide)

/-- the rule features, all zero -/
def row : FeatureRow where
  names := Sentinel.ruleProvenanceFeatures
  values := Sentinel.ruleProvenanceFeatures.map fun _ => 0
  complete := by simp

def provenance : Provenance where
  sourceEventIds := []
  maxSourceAvailableAt := none
  catalogSha256 := "0000000000000000000000000000000000000000000000000000000000000000"
  digest := by decide

/-- two decisions of one actor a day apart -/
def decisions : List (Sentinel.RetainedDecision ℚ) :=
  [⟨⟨"e1", "actor", "shop"⟩, 10, 86400000000, 86400000000⟩, ⟨⟨"e0", "actor", "bank"⟩, 20, 0, 0⟩]

def catalog : Sentinel.SentinelFeatureCatalog := ⟨Sentinel.ruleProvenanceFeatures, "catalog"⟩

end Sample

/-- **A retained decision without a currency** is missing data to the engine and nothing to the verifier. -/
theorem blank_currency_disagrees : ∃ result,
    ({} : RuleManifest).evaluate Sample.retained.observed (Sample.retained.vector Sample.row Sample.provenance) = .ok result ∧
      expectedRuleComponents (Sample.retained.replayRow Sample.row) = some [] ∧
      ("REQUIRED_DATA_MISSING", 1) ∈ ruleComponents result ∧ ¬Agrees result [] := by
  obtain ⟨result, hresult, hhits, hscore⟩ := Sample.retained.evaluate_retained Sample.row Sample.provenance
  have hexpected : sortBy Prod.fst (raised (Sample.retained.signals Sample.row)) = [] := by decide +kernel
  have hagrees := Sample.retained.agrees_iff Sample.row Sample.provenance hhits hscore
  have hmissing := (Sample.retained.raisedPairs_ne Sample.row rfl rfl).1
  rw [hexpected] at hagrees
  refine ⟨result, hresult, ?_, ?_, ?_⟩
  · rw [Sample.retained.expectedRuleComponents_eq, hexpected]
  · rw [Sample.retained.ruleComponents_eq Sample.row Sample.provenance hhits]
    exact mem_sortBy.2 hmissing
  · rw [hagrees]
    decide

theorem rule_replay_sample :
    let _ := PyFloat.rational
    let _ := Sentinel.lengthDigest
    ∃ b values vector provenance,
      Sentinel.buildSentinelFeatures (Sample.decisions.map Sentinel.RetainedDecision.row) Sample.catalog = .ok b ∧
      b.emission? "e1" = some (values, vector, provenance) ∧ provenance.sourceEventIds = ["e0"] := by
  let _ := PyFloat.rational
  let _ := Sentinel.lengthDigest
  have hbuilt : (Sentinel.buildSentinelFeatures (Sample.decisions.map Sentinel.RetainedDecision.row)
      Sample.catalog).toOption.isSome = true := by decide +kernel
  obtain ⟨b, hb⟩ : ∃ b, Sentinel.buildSentinelFeatures (Sample.decisions.map Sentinel.RetainedDecision.row)
      Sample.catalog = .ok b := by
    cases h : Sentinel.buildSentinelFeatures (Sample.decisions.map Sentinel.RetainedDecision.row) Sample.catalog with
    | error e => rw [h] at hbuilt; cases hbuilt
    | ok b => exact ⟨b, rfl⟩
  obtain ⟨values, vector, provenance, hemission, hsources, -⟩ := (rule_replay_exact (F := ℚ)).1 Sample.decisions
    Sample.catalog (fun _ h => h) (by decide) (by decide) b hb _ (List.mem_cons_self ..)
  refine ⟨b, values, vector, provenance, hb, hemission, hsources.trans ?_⟩
  decide +kernel

end RuleReplay

end Apar
