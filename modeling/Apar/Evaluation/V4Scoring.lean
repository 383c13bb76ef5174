/-
The rule arms of the v4 evaluation (`evaluation/v4_scoring.py`): `score_rules_only` and `score_layered_hybrid` read the
result of the rule engine through `_rule_action`, which looks for the names of the severities.

The names it looks for are written in capitals and the severities are not, so it never finds one.

- `ruleAction_approve`: the action is to approve, whatever the hits.
- `hits_eq_nil_iff`: an evaluation without hits is one of a quiet event and vector (`Quiet`).
- `rulesOnly_decisions`, `layeredHybrid_decisions`: what the arms decide, row by row.
- `v4_rule_action_iff`: the arms apply the rules exactly where the rules have nothing to say.

The rows of the feature matrix and the calibrated scores are given, so what holds, holds for every matrix and model.
-/
import Apar.Contracts.Decision
import Apar.Defense.Rules

namespace Apar

open Exec Rules
open Binary64 (nearest)

/-- the values of `RuleSeverity` -/
def RuleSeverity.value : RuleSeverity → String
  | challenge => "challenge"
  | decline => "decline"

namespace V4Scoring

inductive V4Error where
  /-- `V4ScoringError` -/
  | scoring (message : String)
  | raised (error : SimError)
  | keyError
  | indexError
deriving DecidableEq

structure ArmScoredDecision where
  eventId : String
  arm : String
  action : Action
  score : ℚ
  latencyMs : ℚ
deriving DecidableEq

/-! ## Actions -/

/-- `_rule_action` -/
def ruleAction (hits : List RuleHit) : Action :=
  if hits = [] then .approve
  else
    let severityNames := hits.map fun hit => hit.severity.value
    if "DECLINE" ∈ severityNames then .decline
    else if "CHALLENGE" ∈ severityNames then .challenge
    else .approve

/-- `_calibrated_action`, at the thresholds of the bundle -/
def calibratedAction (score : ℚ) : Action :=
  if nineTenths ≤ score then .decline else if 1 / 2 ≤ score then .challenge else .approve

/-! ## Arms -/

/-- `verify_past_only` -/
def verifyPastOnly (observations : List ObservedEvent) : Except V4Error Unit :=
  observations.forM fun row =>
    match row.decisionAt with
    | none => .error (.scoring "decision point must have a decision timestamp")
    | some decisionAt =>
      check (row.availableAt < decisionAt) (.scoring ("past-only causality violated for event " ++ row.eventId))

/-- `event_map[vector.event_id]`, evaluated by the default engine -/
def evaluateRow (observations : List ObservedEvent) (vector : FeatureVector ℚ) : Except V4Error RuleResult := do
  let eventMap := Dict.ofList (observations.map fun e => (e.eventId, e))
  match eventMap.get? vector.eventId with
  | none => .error .keyError
  | some event => (({} : RuleManifest).evaluate event vector).mapError .raised

/-- `score_rules_only`, over the rows of the feature matrix -/
def scoreRulesOnly (observations : List ObservedEvent) (rows : List (FeatureVector ℚ)) :
    Except V4Error (List ArmScoredDecision) := do
  verifyPastOnly observations
  rows.mapM fun vector => do
    let result ← evaluateRow observations vector
    return ⟨vector.eventId, "rules_only", ruleAction result.hits, result.score, nearest (1 / 10)⟩

/-- `score_layered_hybrid`, over the rows of the feature matrix with their calibrated scores -/
def scoreLayeredHybrid (observations : List ObservedEvent) (rows : List (FeatureVector ℚ)) (calibrated : List ℚ) :
    Except V4Error (List ArmScoredDecision) := do
  verifyPastOnly observations
  rows.zipIdx.mapM fun (vector, index) => do
    let result ← evaluateRow observations vector
    match ruleAction result.hits with
    | .decline => return ⟨vector.eventId, "layered_hybrid", .decline, 1, nearest (1 / 10)⟩
    | action =>
      let score ← match calibrated[index]? with
        | some score => .ok score
        | none => .error .indexError
      if action = .challenge then
        return ⟨vector.eventId, "layered_hybrid", .challenge, max score result.score, nearest (1 / 5)⟩
      else return ⟨vector.eventId, "layered_hybrid", calibratedAction score, score, nearest (3 / 5)⟩

/-! ## What the hits call for -/

/-- the action of the most severe hit -/
def calledFor (hits : List RuleHit) : Action :=
  if hits.any (·.severity = .decline) then .decline
  else if hits.any (·.severity = .challenge) then .challenge
  else .approve

theorem calledFor_approve_iff {hits : List RuleHit} : calledFor hits = .approve ↔ hits = [] := by
  cases hits with
  | nil => exact ⟨fun _ => rfl, fun _ => rfl⟩
  | cons hit rest =>
    refine ⟨fun h => ?_, fun h => by cases h⟩
    unfold calledFor at h
    cases hseverity : hit.severity with
    | challenge => simp [hseverity] at h; split_ifs at h
    | decline => simp [hseverity] at h

/-- **The action is to approve**, whatever the hits: no severity has a name in capitals. -/
theorem ruleAction_approve (hits : List RuleHit) : ruleAction hits = .approve := by
  have hname : ∀ name ∈ ["DECLINE", "CHALLENGE"], name ∉ hits.map fun hit => hit.severity.value := by
    intro name hname hmem
    obtain ⟨hit, -, hvalue⟩ := List.mem_map.1 hmem
    have hvalues : ∀ severity : RuleSeverity, ∀ name ∈ ["DECLINE", "CHALLENGE"], severity.value ≠ name := by
      intro severity
      cases severity <;> decide
    exact hvalues _ _ hname hvalue
  by_cases hempty : hits = []
  · rw [ruleAction, if_pos hempty]
  rw [ruleAction, if_neg hempty]
  calc (if "DECLINE" ∈ hits.map (fun hit => hit.severity.value) then Action.decline
        else if "CHALLENGE" ∈ hits.map (fun hit => hit.severity.value) then .challenge else .approve)
      = if "CHALLENGE" ∈ hits.map (fun hit => hit.severity.value) then .challenge else .approve :=
        if_neg (hname _ (by simp))
    _ = .approve := if_neg (hname _ (by simp))

/-! ## Quiet rows -/

/-- an event that passes the gates, with a vector that reaches no threshold -/
def Quiet (event : ObservedEvent) (vector : FeatureVector ℚ) : Prop :=
  mandatoryReasons event = [] ∧ raised (({} : RuleManifest).signals vector.values) = []

instance (event : ObservedEvent) (vector : FeatureVector ℚ) : Decidable (Quiet event vector) :=
  inferInstanceAs (Decidable (_ ∧ _))

variable {vector : FeatureVector ℚ}

/-- the hits of an evaluation that returns, gate by gate and signal by signal -/
theorem hits_perm {event : ObservedEvent} {result : RuleResult}
    (h : ({} : RuleManifest).evaluate event vector = .ok result) :
    ∃ gates rules : List RuleHit, result.hits.Perm (gates ++ rules) ∧
      List.Forall₂ (fun reason hit => hit = ({} : RuleManifest).hitOf (sortedSet (event.eventId :: vector.sourceEventIds))
        reason 1 true) (mandatoryReasons event) gates ∧
      List.Forall₂ (fun s hit => hit = ({} : RuleManifest).hitOf (sortedSet (event.eventId :: vector.sourceEventIds))
        s.1 s.2 false) (raised (({} : RuleManifest).signals vector.values)) rules := by
  have hhit : ∀ {evidence : List String} {reason : DefenseReason} {score : ℚ} {mandatory : Bool} {hit : RuleHit},
      ({} : RuleManifest).hit evidence reason score mandatory = .ok hit →
        hit = ({} : RuleManifest).hitOf evidence reason score mandatory := by
    intro evidence reason score mandatory hit hok
    simp only [RuleManifest.hit, except_bind_eq_ok, except_pure_eq_ok] at hok
    obtain ⟨_, -, heq⟩ := hok
    exact heq.symm
  simp only [RuleManifest.evaluate, except_bind_eq_ok, except_pure_eq_ok, mapM_eq_ok] at h
  obtain ⟨_, -, _, -, gates, hgates, rules, hrules, _, -, rfl⟩ := h
  exact ⟨gates, rules, sortBy_perm _ _, hgates.imp fun _ _ => hhit, hrules.imp fun _ _ => hhit⟩

/-- **An evaluation without hits** is one of a quiet event and vector. -/
theorem hits_eq_nil_iff {event : ObservedEvent} {result : RuleResult}
    (h : ({} : RuleManifest).evaluate event vector = .ok result) : result.hits = [] ↔ Quiet event vector := by
  obtain ⟨gates, rules, hperm, hgates, hrules⟩ := hits_perm h
  have hlength := hperm.length_eq
  rw [List.length_append, ← hgates.length_eq, ← hrules.length_eq] at hlength
  rw [Quiet, ← List.length_eq_zero_iff, ← List.length_eq_zero_iff, ← List.length_eq_zero_iff, hlength]
  omega

/-! ## Runs -/

variable {observations : List ObservedEvent} {rows : List (FeatureVector ℚ)} {decisions : List ArmScoredDecision}

/-- a row whose event and vector are quiet -/
def QuietRow (observations : List ObservedEvent) (vector : FeatureVector ℚ) : Prop :=
  ∃ event, (Dict.ofList (observations.map fun e => (e.eventId, e))).get? vector.eventId = some event ∧ Quiet event vector

theorem evaluateRow_eq_ok {result : RuleResult} :
    evaluateRow observations vector = .ok result ↔
      ∃ event, (Dict.ofList (observations.map fun e => (e.eventId, e))).get? vector.eventId = some event ∧
        ({} : RuleManifest).evaluate event vector = .ok result := by
  simp only [evaluateRow]
  cases (Dict.ofList (observations.map fun e => (e.eventId, e))).get? vector.eventId with
  | none => simp
  | some event => cases hresult : ({} : RuleManifest).evaluate event vector <;> simp [Except.mapError, hresult]

/-- the rules are applied to a row: the rule action is the one its hits call for, a mandatory hit is declined, and a
row whose hits call for a challenge is not approved -/
def Applied (observations : List ObservedEvent) (vector : FeatureVector ℚ) (decision : ArmScoredDecision) : Prop :=
  ∃ result, evaluateRow observations vector = .ok result ∧ ruleAction result.hits = calledFor result.hits ∧
    ((∃ hit ∈ result.hits, hit.mandatory = true) → decision.action = .decline) ∧
    (calledFor result.hits = .challenge → decision.action ≠ .approve)

/-- rules are applied to a row exactly when it is quiet -/
theorem applied_iff {decision : ArmScoredDecision} (h : ∃ result, evaluateRow observations vector = .ok result) :
    Applied observations vector decision ↔ QuietRow observations vector := by
  obtain ⟨result, hresult⟩ := h
  obtain ⟨event, hevent, hok⟩ := evaluateRow_eq_ok.1 hresult
  refine ⟨fun ⟨other, hother, haction, _⟩ => ?_, fun ⟨other, hother, hquiet⟩ => ?_⟩
  · rw [hresult, Except.ok.injEq] at hother
    rw [← hother, ruleAction_approve] at haction
    exact ⟨event, hevent, (hits_eq_nil_iff hok).1 (calledFor_approve_iff.1 haction.symm)⟩
  · rw [hevent, Option.some.injEq] at hother
    have hnone : result.hits = [] := (hits_eq_nil_iff hok).2 (hother ▸ hquiet)
    refine ⟨result, hresult, ?_, fun ⟨hit, hhit, _⟩ => ?_, fun hcalled => ?_⟩
    · rw [hnone]
      rfl
    · rw [hnone] at hhit
      exact absurd hhit List.not_mem_nil
    · rw [hnone] at hcalled
      cases hcalled

theorem rulesOnly_decisions (h : scoreRulesOnly observations rows = .ok decisions) :
    List.Forall₂ (fun vector decision => (∃ result, evaluateRow observations vector = .ok result) ∧
      decision.action = .approve) rows decisions := by
  simp only [scoreRulesOnly, except_bind_eq_ok, mapM_eq_ok, except_pure_eq_ok] at h
  obtain ⟨_, -, hrows⟩ := h
  refine hrows.imp fun vector decision hrow => ?_
  obtain ⟨result, hresult, heq⟩ := hrow
  refine ⟨⟨result, hresult⟩, ?_⟩
  rw [← heq]
  exact ruleAction_approve _

theorem layeredHybrid_decisions {calibrated : List ℚ}
    (h : scoreLayeredHybrid observations rows calibrated = .ok decisions) :
    List.Forall₂ (fun row decision => (∃ result, evaluateRow observations row.1 = .ok result) ∧
      ∃ score, calibrated[row.2]? = some score ∧ decision.action = calibratedAction score) rows.zipIdx decisions := by
  simp only [scoreLayeredHybrid, except_bind_eq_ok, mapM_eq_ok] at h
  obtain ⟨_, -, hrows⟩ := h
  refine hrows.imp fun row decision ⟨result, hresult, heq⟩ => ⟨⟨result, hresult⟩, ?_⟩
  cases hscore : calibrated[row.2]? with
  | none =>
    simp only [ruleAction_approve, hscore] at heq
    cases heq
  | some score =>
    simp only [ruleAction_approve, hscore, except_ok_bind, reduceCtorEq, if_false, except_pure_eq_ok] at heq
    exact ⟨score, rfl, by rw [← heq]⟩

theorem forall₂_iff_of_left {α β : Type} {R : α → β → Prop} {P : α → Prop} {xs : List α} {ys : List β}
    (h : List.Forall₂ (fun x y => R x y ↔ P x) xs ys) : List.Forall₂ R xs ys ↔ ∀ x ∈ xs, P x := by
  induction h with
  | nil => simp
  | cons hxy _ ih => rw [List.forall₂_cons, hxy, ih, List.forall_mem_cons]

end V4Scoring

open V4Scoring

/-- **The v4 arms and the rules.** The rule action of an evaluation is the one its hits call for exactly when the event passes
every gate and no feature reaches its threshold; and a run of either arm applies the rules to its rows exactly when all of
them are such rows. -/
theorem v4_rule_action_iff (event : ObservedEvent) (vector : FeatureVector ℚ) (result : RuleResult)
    (observations : List ObservedEvent) (rows : List (FeatureVector ℚ)) (calibrated : List ℚ)
    (decisions layered : List ArmScoredDecision) (hresult : ({} : RuleManifest).evaluate event vector = .ok result)
    (hrules : scoreRulesOnly observations rows = .ok decisions)
    (hlayered : scoreLayeredHybrid observations rows calibrated = .ok layered) :
    (ruleAction result.hits = calledFor result.hits ↔ Quiet event vector) ∧
      (List.Forall₂ (Applied observations) rows decisions ↔ ∀ row ∈ rows, QuietRow observations row) ∧
      (List.Forall₂ (Applied observations) rows layered ↔ ∀ row ∈ rows, QuietRow observations row) := by
  refine ⟨?_, ?_, ?_⟩
  · rw [ruleAction_approve, eq_comm, calledFor_approve_iff, hits_eq_nil_iff hresult]
  · exact forall₂_iff_of_left ((rulesOnly_decisions hrules).imp fun _ _ h => applied_iff h.1)
  · have hrows := layeredHybrid_decisions hlayered
    have hevaluated : List.Forall₂ (fun vector _ => ∃ result, evaluateRow observations vector = .ok result) rows layered := by
      have hmap : List.Forall₂ (fun (row : FeatureVector ℚ × ℕ) (_ : ArmScoredDecision) =>
          ∃ result, evaluateRow observations row.1 = .ok result) rows.zipIdx layered := hrows.imp fun _ _ h => h.1
      rw [← List.zipIdx_map_fst 0 rows]
      exact List.forall₂_map_left_iff.2 hmap
    exact forall₂_iff_of_left (hevaluated.imp fun _ _ h => applied_iff h)

namespace V4Scoring

/-- an agentic authorization with an integrity status -/
def sampleEvent (status : IntegrityStatus) : ObservedEvent :=
  ⟨"event", "payment", .agentic, .authorization, ⟨100, -2⟩, "USD", 0, 0, some 1, "actor", "counterparty", ∅, status, none,
    true⟩

/-- its vector, with every feature missing -/
def sampleVector : FeatureVector ℚ := ⟨"event", 1, [], none, String.ofList (List.replicate 64 '0'), ∅⟩

theorem sample_evaluated (status : IntegrityStatus) :
    ∃ result, ({} : RuleManifest).evaluate (sampleEvent status) sampleVector = .ok result := by
  have hdigest : isDigestText sampleVector.catalogDigest = true := by decide
  exact ⟨_, evaluate_eq_ok rfl rfl (show "event" ≠ "" by decide) hdigest⟩

theorem sample_quiet : Quiet (sampleEvent .pass) sampleVector := by
  have hvalue : ∀ name, sampleVector.values.getD name 0 = 0 := fun _ => rfl
  refine ⟨by decide, ?_⟩
  simp only [RuleManifest.signals, hvalue]
  norm_num [raised, ruleScore, strongest, List.reduceOption_cons_of_none, List.reduceOption_nil]

theorem sample_runs {status : IntegrityStatus} {result : RuleResult} (score : ℚ)
    (h : ({} : RuleManifest).evaluate (sampleEvent status) sampleVector = .ok result) :
    scoreRulesOnly [sampleEvent status] [sampleVector] =
        .ok [⟨"event", "rules_only", .approve, result.score, nearest (1 / 10)⟩] ∧
      scoreLayeredHybrid [sampleEvent status] [sampleVector] [score] =
        .ok [⟨"event", "layered_hybrid", calibratedAction score, score, nearest (3 / 5)⟩] := by
  have hpast : verifyPastOnly [sampleEvent status] = .ok () := rfl
  have hrow : evaluateRow [sampleEvent status] sampleVector = .ok result := evaluateRow_eq_ok.2 ⟨_, rfl, h⟩
  refine ⟨?_, ?_⟩
  · simp only [scoreRulesOnly, hpast, except_ok_bind, List.mapM_cons, List.mapM_nil, hrow, ruleAction_approve]
    rfl
  · simp only [scoreLayeredHybrid, hpast, except_ok_bind, List.zipIdx_cons, List.zipIdx_nil, List.mapM_cons, List.mapM_nil,
      hrow, ruleAction_approve]
    rfl

end V4Scoring

theorem v4_rule_action_sample : ∃ result, ({} : RuleManifest).evaluate (sampleEvent .pass) sampleVector = .ok result ∧
    ruleAction result.hits = calledFor result.hits := by
  obtain ⟨result, hresult⟩ := sample_evaluated .pass
  obtain ⟨hrules, hlayered⟩ := sample_runs 0 hresult
  exact ⟨result, hresult, (v4_rule_action_iff _ _ result _ _ [0] _ _ hresult hrules hlayered).1.2 sample_quiet⟩

/-- **A payment that fails its integrity check is approved.** The rule engine declines it with a mandatory hit; both arms,
at a calibrated score of zero, approve it. -/
theorem v4_integrity_failure_approved : ∃ result hit,
    ({} : RuleManifest).evaluate (sampleEvent .fail) sampleVector = .ok result ∧ hit ∈ result.hits ∧ hit.mandatory = true ∧
      hit.severity = .decline ∧ calledFor result.hits = .decline ∧ ruleAction result.hits = .approve ∧
      (∃ decision, scoreRulesOnly [sampleEvent .fail] [sampleVector] = .ok [decision] ∧ decision.action = .approve) ∧
      ∃ decision, scoreLayeredHybrid [sampleEvent .fail] [sampleVector] [0] = .ok [decision] ∧
        decision.action = .approve := by
  obtain ⟨result, hresult⟩ := sample_evaluated .fail
  obtain ⟨hrules, hlayered⟩ := sample_runs 0 hresult
  obtain ⟨gates, rules, hperm, hgates, -⟩ := hits_perm hresult
  have hreasons : DefenseReason.integrityFailure ∈ mandatoryReasons (sampleEvent .fail) := by decide
  obtain ⟨hit, hhit, rfl⟩ := forall₂_mem_left hgates hreasons
  have hmem := hperm.mem_iff.2 (List.mem_append_left rules hhit)
  have hcalibrated : calibratedAction 0 = .approve := by
    have htenths : (0 : ℚ) < nineTenths := by
      have herror : |nineTenths - 9 / 10| ≤ Binary64.epsilon := Binary64.abs_nearest_sub_le (by norm_num)
      have hsmall : Binary64.epsilon < 9 / 10 := by
        unfold Binary64.epsilon
        norm_num
      rw [abs_le] at herror
      linarith [herror.1]
    rw [calibratedAction, if_neg (not_le.2 htenths), if_neg (by norm_num)]
  have hcalled : calledFor result.hits = .decline := by
    rw [calledFor, if_pos]
    rw [List.any_eq_true]
    exact ⟨_, hmem, by simp [RuleManifest.hitOf, severityOf]⟩
  exact ⟨result, _, hresult, hmem, rfl, by simp [RuleManifest.hitOf, severityOf], hcalled, ruleAction_approve _,
    ⟨_, hrules, rfl⟩, _, hlayered, hcalibrated⟩

end Apar
